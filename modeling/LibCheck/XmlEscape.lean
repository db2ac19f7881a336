import LibCheck.Run
import LibCheck.Xml

/-!
# LibCheck.XmlEscape

The escapes of the XML log, read back by a reader of XML.

* `xmlEsc_cases` — a byte is dropped, kept, or written as a reference to the
  character with its number.
* `fprintXmlEsc_legal` — what `fprint_xml_esc` writes is character data, and
  nothing that could be kept of ASCII is lost.
* `fprintXmlEsc_lossless_iff` — text is read back as it was, on every platform, if
  and only if all of it is ASCII: each byte of a longer sequence is escaped by
  itself.
-/

namespace LibCheck

/-! ## bytes as characters -/

/-- The characters of bytes that are taken one by one. -/
def latin1 (bytes : List UInt8) : List Char := bytes.map fun b => Char.ofNat b.toNat

@[simp] theorem latin1_nil : latin1 [] = [] := rfl

@[simp] theorem latin1_cons (b : UInt8) (bytes : List UInt8) :
    latin1 (b :: bytes) = Char.ofNat b.toNat :: latin1 bytes := rfl

@[simp] theorem latin1_append (as bs : List UInt8) : latin1 (as ++ bs) = latin1 as ++ latin1 bs :=
  List.map_append

/-- The character of a byte has the number of the byte. -/
theorem toNat_latin1 (b : UInt8) : (Char.ofNat b.toNat).toNat = b.toNat := by
  have hb := b.toNat_lt
  have hvalid : b.toNat.isValidChar := by
    left
    omega
  unfold Char.ofNat
  rw [dif_pos hvalid]
  rfl

theorem latin1_inj {a b : UInt8} (h : Char.ofNat a.toNat = Char.ofNat b.toNat) : a = b := by
  have hnat := congrArg Char.toNat h
  rw [toNat_latin1, toNat_latin1] at hnat
  exact UInt8.toNat_inj.mp hnat

/-- A character is among those of some bytes if and only if its byte is. -/
theorem mem_latin1 {b : UInt8} {bytes : List UInt8} : Char.ofNat b.toNat ∈ latin1 bytes ↔
    b ∈ bytes := by
  unfold latin1
  simp only [List.mem_map]
  constructor
  · intro ⟨a, ha, he⟩
    exact latin1_inj he ▸ ha
  · intro hb
    exact ⟨b, hb, rfl⟩

/-- ASCII is its own encoding. -/
theorem encodeUtf8_latin1 {bytes : List UInt8} (h : ∀ b ∈ bytes, b < 128) :
    Xml.encodeUtf8 (latin1 bytes) = bytes := by
  induction bytes with
  | nil => rfl
  | cons b bytes ih =>
      have hb : b.toNat ≤ 127 := by
        have hlt := UInt8.lt_iff_toNat_lt.mp (h b List.mem_cons_self)
        simp at hlt
        omega
      have hone : String.utf8EncodeChar (Char.ofNat b.toNat) = [b] := by
        have hval : (Char.ofNat b.toNat).val.toNat = b.toNat := toNat_latin1 b
        unfold String.utf8EncodeChar
        simp [hval, hb]
      rw [latin1_cons, Xml.encodeUtf8, List.flatMap_cons, hone]
      rw [Xml.encodeUtf8] at ih
      rw [ih fun c hc => h c (List.mem_cons_of_mem b hc)]
      rfl

/-! ## the escape of a byte -/

/-- The bytes that an escape must not lose: those of ASCII that are characters of
XML. -/
def MustKeep (b : UInt8) : Prop := 32 ≤ b ∧ b ≤ 127 ∨ b ∈ [(9 : UInt8), 10, 13]

instance (b : UInt8) : Decidable (MustKeep b) := inferInstanceAs (Decidable (_ ∨ _))

/-- Printable ASCII but the five special characters. -/
def IsPlainByte (b : UInt8) : Prop := 32 ≤ b ∧ b ≤ 126 ∧ b ∉ [(34 : UInt8), 39, 60, 62, 38]

instance (b : UInt8) : Decidable (IsPlainByte b) := inferInstanceAs (Decidable (_ ∧ _))

/-- What stands between the `&` and the `;` of a reference: the name of one of the
five entities, or `#x` and the hexadecimal number of a character of XML. -/
structure IsRefBody (body : List UInt8) : Prop where
  plain : ∀ c ∈ body, IsPlainByte c ∧ c ≠ 59
  isSome : (Xml.refChar (latin1 body)).isSome
  shape : body ∈ ["quot", "apos", "lt", "gt", "amp"].map text ∨ text "#x" <+: body

instance (body : List UInt8) : Decidable (IsRefBody body) :=
  decidable_of_iff (_ ∧ _ ∧ _) ⟨fun h => ⟨h.1, h.2.1, h.2.2⟩, fun h => ⟨h.1, h.2, h.3⟩⟩

/-- A byte is dropped, kept, or written as a reference to the character with its
number. -/
inductive Escaped (b : UInt8) : List UInt8 → Prop where
  | dropped : ¬MustKeep b → Escaped b []
  | kept : IsPlainByte b → Escaped b [b]
  | ref {body : List UInt8} : IsRefBody body →
      Xml.refChar (latin1 body) = some (Char.ofNat b.toNat) → Escaped b (38 :: body ++ [59])

theorem xmlEsc_cases (cfg : Config) (b : UInt8) : Escaped b (xmlEsc cfg b) := by
  -- of the platform only the signedness of `char` is read
  have hall : ∀ (charSigned : Bool) (n : Fin 256),
      let b := UInt8.ofNat n
      let esc := xmlEsc { Sample.cfg with charSigned := charSigned } b
      (esc = [] ∧ ¬MustKeep b) ∨ (esc = [b] ∧ IsPlainByte b) ∨
        (esc = 38 :: esc.tail.dropLast ++ [59] ∧ IsRefBody esc.tail.dropLast ∧
          Xml.refChar (latin1 esc.tail.dropLast) = some (Char.ofNat b.toNat)) := by
    decide +kernel
  have hb := hall cfg.charSigned ⟨b.toNat, b.toNat_lt⟩
  simp only [UInt8.ofNat_toNat] at hb
  have heq : xmlEsc { Sample.cfg with charSigned := cfg.charSigned } b = xmlEsc cfg b := rfl
  rw [heq] at hb
  rcases hb with ⟨he, h⟩ | ⟨he, h⟩ | ⟨he, hbody, h⟩
  · rw [he]
    exact .dropped h
  · rw [he]
    exact .kept h
  · rw [he]
    exact .ref hbody h

/-! ## character data -/

/-- The parts of legal character data: printable characters, entities, and
references to characters. -/
inductive DataPart : List UInt8 → Prop where
  | char {b : UInt8} : IsPlainByte b → DataPart [b]
  | ref {body : List UInt8} : IsRefBody body → DataPart (38 :: body ++ [59])

theorem Escaped.dataPart {b : UInt8} {esc : List UInt8} (h : Escaped b esc) :
    esc = [] ∨ DataPart esc := by
  cases h with
  | dropped _ => exact .inl rfl
  | kept hb => exact .inr (.char hb)
  | ref hbody _ => exact .inr (.ref hbody)

theorem IsPlainByte.ne_amp {b : UInt8} (h : IsPlainByte b) : b ≠ 38 := by
  unfold IsPlainByte at h
  simp_all

/-- Every byte of an escape is an ampersand or printable. -/
theorem Escaped.plain {b c : UInt8} {esc : List UInt8} (h : Escaped b esc) (hc : c ∈ esc) :
    c = 38 ∨ IsPlainByte c := by
  cases h with
  | dropped _ => cases hc
  | kept hb =>
      rw [List.mem_singleton.mp hc]
      exact .inr hb
  | ref hbody _ =>
      simp only [List.cons_append, List.mem_cons, List.mem_append, List.not_mem_nil, or_false] at hc
      rcases hc with rfl | hc | rfl
      · exact .inl rfl
      · exact .inr (hbody.plain c hc).1
      · exact .inr (by decide)

/-- An ampersand stands at the front of a reference. -/
theorem DataPart.amp {part pre post : List UInt8} (h : DataPart part)
    (hp : part = pre ++ 38 :: post) :
    ∃ body, IsRefBody body ∧ post = body ++ [59] := by
  cases h with
  | @char b hb =>
      have hmem : 38 ∈ [b] := by simp [hp]
      exact absurd (List.mem_singleton.mp hmem).symm hb.ne_amp
  | @ref body hbody =>
      cases pre with
      | nil =>
          simp only [List.cons_append, List.nil_append, List.cons.injEq, true_and] at hp
          exact ⟨body, hbody, hp.symm⟩
      | cons d pre =>
          simp only [List.cons_append, List.cons.injEq] at hp
          have hmem : 38 ∈ body ++ [59] := by simp [hp.2]
          rcases List.mem_append.mp hmem with hmem | hmem
          · exact absurd rfl (hbody.plain 38 hmem).1.ne_amp
          · exact absurd hmem (by decide)

theorem amp_of_dataParts {parts : List (List UInt8)} (h : ∀ p ∈ parts, DataPart p)
    {pre post : List UInt8} (hp : parts.flatten = pre ++ 38 :: post) :
    ∃ body rest, IsRefBody body ∧ post = body ++ 59 :: rest := by
  induction parts generalizing pre with
  | nil => simp at hp
  | cons part parts ih =>
      rw [List.flatten_cons, List.append_eq_append_iff] at hp
      rcases hp with ⟨pre', -, hp⟩ | ⟨more, hpart, hp⟩
      · exact ih (fun p hm => h p (List.mem_cons_of_mem part hm)) hp
      · cases more with
        | nil =>
            rw [List.nil_append, ← List.nil_append (38 :: post)] at hp
            exact ih (fun p hm => h p (List.mem_cons_of_mem part hm)) hp.symm
        | cons c more =>
            simp only [List.cons_append, List.cons.injEq] at hp
            obtain ⟨rfl, rfl⟩ := hp
            obtain ⟨body, hbody, rfl⟩ := (h part List.mem_cons_self).amp hpart
            exact ⟨body, parts.flatten, hbody, by simp⟩

theorem fprintXmlEsc_parts (cfg : Config) (str : CStr) :
    ∃ parts : List (List UInt8), fprintXmlEsc cfg str = parts.flatten ∧ ∀ p ∈ parts,
      DataPart p := by
  unfold fprintXmlEsc
  induction str.bytes with
  | nil => exact ⟨[], rfl, by simp⟩
  | cons b bytes ih =>
      obtain ⟨parts, heq, hparts⟩ := ih
      rw [List.flatMap_cons, heq]
      rcases (xmlEsc_cases cfg b).dataPart with hesc | hesc
      · exact ⟨parts, by rw [hesc]; rfl, hparts⟩
      · exact ⟨xmlEsc cfg b :: parts, rfl, List.forall_mem_cons.mpr ⟨hesc, hparts⟩⟩

theorem fprintXmlEsc_plain (cfg : Config) (str : CStr) :
    ∀ c ∈ fprintXmlEsc cfg str, c = 38 ∨ IsPlainByte c := by
  intro c hc
  obtain ⟨b, -, hc⟩ := List.mem_flatMap.mp hc
  exact (xmlEsc_cases cfg b).plain hc

/-! ## reading it back -/

/-- The bytes of which an escape is written. -/
def kept (cfg : Config) (b : UInt8) : Bool := xmlEsc cfg b ≠ []

theorem kept_of_mustKeep {cfg : Config} {b : UInt8} (h : MustKeep b) : kept cfg b := by
  have hesc := xmlEsc_cases cfg b
  unfold kept
  generalize xmlEsc cfg b = esc at hesc
  cases hesc with
  | dropped hb => exact absurd h hb
  | kept _ => rfl
  | ref _ _ => rfl

/-- The escapes of bytes are character data that holds these bytes, less those
without an escape. -/
theorem yields_escapes (cfg : Config) (bytes : List UInt8) :
    Xml.Yields (latin1 (bytes.flatMap (xmlEsc cfg)))
      ((latin1 (bytes.filter (kept cfg))).map .char) := by
  induction bytes with
  | nil => exact Xml.Solid.nil.yields
  | cons b bytes ih =>
      rw [List.flatMap_cons, latin1_append]
      have hesc := xmlEsc_cases cfg b
      have hkept : kept cfg b = decide (xmlEsc cfg b ≠ []) := rfl
      generalize xmlEsc cfg b = esc at hesc hkept
      cases hesc with
      | dropped _ =>
          rw [List.filter_cons_of_neg (by simp [hkept])]
          exact ih
      | kept hb =>
          rw [List.filter_cons_of_pos (by simp [hkept]),
            latin1_cons b (bytes.filter (kept cfg)), List.map_cons]
          by_cases hbr : b = 93
          · -- no `>` is ever written
            have hgt : '>' ∉ latin1 (bytes.flatMap (xmlEsc cfg)) := fun hm => by
              obtain ⟨a, -, ha⟩ := List.mem_flatMap.mp ((mem_latin1 (b := 62)).mp hm)
              rcases (xmlEsc_cases cfg a).plain ha with he | he
              · exact absurd he (by decide)
              · exact absurd he (by decide)
            rw [hbr]
            exact ih.bracket hgt
          · have hne : ∀ c : UInt8, b ≠ c → Char.ofNat b.toNat ≠ Char.ofNat c.toNat :=
              fun c hc he => hc (latin1_inj he)
            have hlt : b ≠ 60 := by
              unfold IsPlainByte at hb
              simp_all
            exact (Xml.Solid.char (hne 60 hlt) (hne 38 hb.ne_amp) (hne 93 hbr)).append_yields ih
      | @ref body hbody hchar =>
          rw [List.filter_cons_of_pos (by simp [hkept]),
            latin1_cons b (bytes.filter (kept cfg)), List.map_cons]
          have hsemi : ';' ∉ latin1 body := fun hm =>
            (hbody.plain 59 ((mem_latin1 (b := 59)).mp hm)).2 rfl
          have href := (Xml.Solid.ref hsemi hchar).append_yields ih
          rwa [show latin1 (38 :: body ++ [59]) = '&' :: latin1 body ++ [';'] from
            (latin1_append (38 :: body) [59])]

/-- What is read back of a text: its bytes, less those without an escape. -/
theorem readText_fprintXmlEsc (cfg : Config) (str : CStr) :
    Xml.readText (fprintXmlEsc cfg str) = some (latin1 (str.bytes.filter (kept cfg))) := by
  have hplain := fprintXmlEsc_plain cfg str
  have hascii : ∀ c ∈ fprintXmlEsc cfg str, c < 128 := fun c hc => by
    rcases hplain c hc with rfl | ⟨-, hle, -⟩
    · decide
    · exact UInt8.lt_of_le_of_lt hle (by decide)
  have hdec : Xml.decodeUtf8 (fprintXmlEsc cfg str) = some (latin1 (fprintXmlEsc cfg str)) :=
    calc Xml.decodeUtf8 (fprintXmlEsc cfg str)
        = Xml.decodeUtf8 (Xml.encodeUtf8 (latin1 (fprintXmlEsc cfg str))) := by
          rw [encodeUtf8_latin1 hascii]
      _ = some (latin1 (fprintXmlEsc cfg str)) := Xml.decodeUtf8_encodeUtf8 _
  have hlow : ∀ c ∈ fprintXmlEsc cfg str, 32 ≤ c := fun c hc => by
    rcases hplain c hc with rfl | ⟨hle, -, -⟩
    · decide
    · exact hle
  apply Xml.readText_eq hdec
  · intro hm
    exact absurd (hlow 13 ((mem_latin1 (b := 13)).mp hm)) (by decide)
  · intro c hc
    obtain ⟨b, hb, rfl⟩ := List.mem_map.mp hc
    have h1 := UInt8.le_iff_toNat_le.mp (hlow b hb)
    have h2 := UInt8.lt_iff_toNat_lt.mp (hascii b hb)
    unfold Xml.isChar Xml.inRanges
    simp at h1 h2 ⊢
    rw [show (Char.ofNat b.toNat).toNat = b.toNat from toNat_latin1 b]
    omega
  · exact yields_escapes cfg str.bytes

/-- **What `fprint_xml_esc` writes is character data of XML, whatever it is given
and whatever the signedness of `char`: printable characters, named entities and
references to characters, with every ampersand at the front of one of these.  A
reader of XML gets back the bytes, but for some of those that are not characters
of XML or lie outside of ASCII.** -/
theorem fprintXmlEsc_legal (cfg : Config) (str : CStr) :
    (∃ parts : List (List UInt8), fprintXmlEsc cfg str = parts.flatten ∧ ∀ p ∈ parts, DataPart p) ∧
      (∀ pre post, fprintXmlEsc cfg str = pre ++ 38 :: post →
        ∃ body rest, IsRefBody body ∧ post = body ++ 59 :: rest) ∧
      ∃ keep : UInt8 → Bool, (∀ b, MustKeep b → keep b) ∧
        Xml.readText (fprintXmlEsc cfg str) = some (latin1 (str.bytes.filter keep)) := by
  obtain ⟨parts, heq, hparts⟩ := fprintXmlEsc_parts cfg str
  refine ⟨⟨parts, heq, hparts⟩, fun pre post hp => ?_, kept cfg, fun b hb =>
    kept_of_mustKeep hb, ?_⟩
  · exact amp_of_dataParts hparts (heq ▸ hp)
  · exact readText_fprintXmlEsc cfg str

/-! ## text beyond ASCII -/

/-- A `char` with a negative value gets no escape. -/
theorem kept_signed {cfg : Config} {b : UInt8} (hs : cfg.charSigned = true) (h : kept cfg b) :
    b < 128 := by
  have hall : ∀ n : Fin 256, kept Sample.cfg (UInt8.ofNat n) → UInt8.ofNat n < 128 := by
    decide +kernel
  have hb := hall ⟨b.toNat, b.toNat_lt⟩
  simp only [UInt8.ofNat_toNat] at hb
  have heq : kept cfg b = kept { Sample.cfg with charSigned := cfg.charSigned } b := rfl
  rw [heq, hs] at h
  exact hb h

/-- The escape of an ASCII character does not depend on the signedness of `char`. -/
theorem xmlEsc_ascii (cfg : Config) {b : UInt8} (h : b < 128) :
    xmlEsc { cfg with charSigned := true } b = xmlEsc { cfg with charSigned := false } b := by
  have hb : ¬128 ≤ b.toNat := by
    have hlt := UInt8.lt_iff_toNat_lt.mp h
    simp at hlt
    omega
  unfold xmlEsc
  simp [hb]

/-- The characters of a text that no document may hold as control characters. -/
def NoForbiddenControl (cs : List Char) : Prop :=
  ∀ c ∈ cs, c.toNat < 32 → c ∈ ['\t', '\n', '\r']

theorem eq_latin1 {bytes : List UInt8} {cs : List Char} (h : bytes = Xml.encodeUtf8 cs)
    (hascii : ∀ b ∈ bytes, b < 128) : cs = latin1 bytes := by
  have hdec := congrArg Xml.decodeUtf8 (h.symm.trans (encodeUtf8_latin1 hascii).symm)
  simpa using hdec

/-- Nothing is dropped of ASCII text. -/
theorem filter_kept {cfg : Config} {bytes : List UInt8} (hascii : ∀ b ∈ bytes, b < 128)
    (hctl : NoForbiddenControl (latin1 bytes)) : bytes.filter (kept cfg) = bytes := by
  apply List.filter_eq_self.mpr
  intro b hb
  apply kept_of_mustKeep
  by_cases hlow : b < 32
  · have hlt := UInt8.lt_iff_toNat_lt.mp hlow
    have hmem := hctl _ (mem_latin1.mpr hb) (by rw [toNat_latin1]; simpa using hlt)
    simp only [List.mem_cons, List.not_mem_nil, or_false] at hmem
    rcases hmem with he | he | he
    · exact .inr (by simp [latin1_inj (b := 9) he])
    · exact .inr (by simp [latin1_inj (b := 10) he])
    · exact .inr (by simp [latin1_inj (b := 13) he])
  · have hle := hascii b hb
    exact .inl ⟨UInt8.not_lt.mp hlow, by grind⟩

/-- **The escaped text is the same on every platform, and a reader of XML gets the
text back, if and only if the text is ASCII: beyond it each byte of a character is
escaped by itself, as the character with the number of the byte, or dropped where
`char` is signed.** -/
theorem fprintXmlEsc_lossless_iff {cfg : Config} {str : CStr} {cs : List Char}
    (hstr : str.bytes = Xml.encodeUtf8 cs) (hctl : NoForbiddenControl cs) :
    (fprintXmlEsc { cfg with charSigned := true } str =
        fprintXmlEsc { cfg with charSigned := false } str ∧
      ∀ signed, Xml.readText (fprintXmlEsc { cfg with charSigned := signed } str) = some cs) ↔
    ∀ b ∈ str.bytes, b < 128 := by
  constructor
  · intro ⟨_, hread⟩
    have hread := hread true
    rw [readText_fprintXmlEsc, Option.some.injEq] at hread
    have hascii : ∀ b ∈ str.bytes.filter (kept { cfg with charSigned := true }), b < 128 :=
      fun b hb => kept_signed rfl (List.mem_filter.mp hb).2
    have hbytes : str.bytes = str.bytes.filter (kept { cfg with charSigned := true }) :=
      calc str.bytes = Xml.encodeUtf8 cs := hstr
        _ = str.bytes.filter (kept { cfg with charSigned := true }) := by
          rw [← hread, encodeUtf8_latin1 hascii]
    rwa [← hbytes] at hascii
  · intro hascii
    have hcs := eq_latin1 hstr hascii
    constructor
    · unfold fprintXmlEsc
      simp only [List.flatMap_def]
      rw [List.map_congr_left fun b hb => xmlEsc_ascii cfg (hascii b hb)]
    · intro signed
      rw [readText_fprintXmlEsc, filter_kept hascii (hcs ▸ hctl), hcs]

/-- ASCII text with special characters and a tab. -/
theorem fprintXmlEsc_lossless_iff_ascii :
    let str := CStr.lit "a<b\t&c"
    fprintXmlEsc { Sample.cfg with charSigned := true } str =
        fprintXmlEsc { Sample.cfg with charSigned := false } str ∧
      ∀ signed, Xml.readText (fprintXmlEsc { Sample.cfg with charSigned := signed } str) =
        some "a<b\t&c".toList :=
  have hstr : (CStr.lit "a<b\t&c").bytes = Xml.encodeUtf8 "a<b\t&c".toList := by decide +kernel
  have hctl : NoForbiddenControl "a<b\t&c".toList := by
    unfold NoForbiddenControl
    decide +kernel
  (fprintXmlEsc_lossless_iff hstr hctl).mpr (by decide)

/-- An accented letter vanishes where `char` is signed, and is two other
characters where it is not. -/
theorem fprintXmlEsc_e_acute :
    let str : CStr := ⟨[0xC3, 0xA9], by decide⟩
    let signed := fprintXmlEsc { Sample.cfg with charSigned := true } str
    let unsigned := fprintXmlEsc { Sample.cfg with charSigned := false } str
    str.bytes = Xml.encodeUtf8 ['é'] ∧ NoForbiddenControl ['é'] ∧
      signed = [] ∧ unsigned = text "&#xC3;&#xA9;" ∧
      Xml.readText signed = some [] ∧ Xml.readText unsigned = some ['Ã', '©'] := by
  unfold NoForbiddenControl
  decide +kernel

end LibCheck
