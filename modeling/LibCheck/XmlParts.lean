import LibCheck.XmlEscape
import LibCheck.XmlFrame

/-!
# LibCheck.XmlParts

The bytes of a text in which some parts are written as they come, and its
characters.

* `encodeUtf8_split` — UTF-8 can be cut in front of ASCII.
* `Part` — a piece of the text, as bytes.
* `plain_of_visits` — a reader gets the parts back only if each of them is plain text.
-/

namespace LibCheck

open Xml (encodeUtf8 normalizeEol Piece frameText)

/-! ## UTF-8 around ASCII -/

/-- A byte of ASCII is a character of its own. -/
theorem utf8EncodeChar_ascii {c : Char} {b : UInt8} {bytes : List UInt8}
    (h : String.utf8EncodeChar c = b :: bytes) (hb : b < 128) :
    bytes = [] ∧ c = Char.ofNat b.toNat := by
  have hb' : b.toNat < 128 := by
    have hlt := UInt8.lt_iff_toNat_lt.mp hb
    simpa using hlt
  unfold String.utf8EncodeChar at h
  dsimp only at h
  split at h
  · next hle =>
      simp only [List.cons.injEq] at h
      refine ⟨h.2.symm, ?_⟩
      rw [← h.1]
      have hnat : (UInt8.ofNat c.val.toNat).toNat = c.toNat := by
        rw [UInt8.toNat_ofNat']
        show c.toNat % 256 = c.toNat
        have hle : c.toNat ≤ 127 := hle
        omega
      rw [hnat, Char.ofNat_toNat]
  · -- the first byte of a longer sequence is not ASCII
    have hlarge : ∀ n k : Nat, 128 ≤ k → n + k < 256 → UInt8.ofNat (n + k) ≠ b := by
      intro n k hk hn he
      rw [← he, UInt8.toNat_ofNat'] at hb'
      omega
    split at h
    · exact absurd (List.cons.inj h).1 (hlarge _ 0xc0 (by omega) (by omega))
    split at h
    · exact absurd (List.cons.inj h).1 (hlarge _ 0xe0 (by omega) (by omega))
    · exact absurd (List.cons.inj h).1 (hlarge _ 0xf0 (by omega) (by omega))

theorem encodeUtf8_ascii_append {cs : List Char} {frame bytes : List UInt8}
    (hframe : ∀ b ∈ frame, b < 128) (h : encodeUtf8 cs = frame ++ bytes) :
    ∃ ds, cs = latin1 frame ++ ds ∧ encodeUtf8 ds = bytes := by
  induction frame generalizing cs with
  | nil => exact ⟨cs, rfl, h⟩
  | cons b frame ih =>
      obtain ⟨hb, hmore⟩ := List.forall_mem_cons.mp hframe
      cases cs with
      | nil => cases h
      | cons c cs =>
          rw [encodeUtf8, List.flatMap_cons] at h
          cases hc : String.utf8EncodeChar c with
          | nil =>
              have hlen := congrArg List.length hc
              rw [String.length_utf8EncodeChar] at hlen
              exact absurd hlen (Nat.ne_of_gt c.utf8Size_pos)
          | cons d more =>
              rw [hc, List.cons_append, List.cons_append, List.cons.injEq] at h
              obtain ⟨rfl, h⟩ := h
              obtain ⟨rfl, rfl⟩ := utf8EncodeChar_ascii hc hb
              obtain ⟨ds, rfl, hds⟩ := ih hmore h
              exact ⟨ds, rfl, hds⟩

/-- UTF-8 can be cut in front of ASCII. -/
theorem encodeUtf8_split {cs : List Char} {as bs : List UInt8} (h : encodeUtf8 cs = as ++ bs)
    (hbs : ∀ b ∈ bs.head?, b < 128) :
    ∃ ds es, cs = ds ++ es ∧ encodeUtf8 ds = as ∧ encodeUtf8 es = bs := by
  induction cs generalizing as with
  | nil =>
      obtain ⟨rfl, rfl⟩ := List.append_eq_nil_iff.mp h.symm
      exact ⟨[], [], rfl, rfl, rfl⟩
  | cons c cs ih =>
      rw [encodeUtf8, List.flatMap_cons] at h
      rcases List.append_eq_append_iff.mp h with ⟨more, rfl, hmore⟩ | ⟨more, hc, hmore⟩
      · obtain ⟨ds, es, rfl, rfl, hes⟩ := ih hmore
        exact ⟨c :: ds, es, rfl, List.flatMap_cons, hes⟩
      · cases more with
        | nil =>
            obtain ⟨ds, es, rfl, hds, hes⟩ := @ih [] hmore.symm
            refine ⟨c :: ds, es, rfl, ?_, hes⟩
            rw [encodeUtf8, List.flatMap_cons, hc, List.append_nil]
            exact (congrArg (as ++ ·) hds).trans (List.append_nil as)
        | cons b more =>
            cases as with
            | nil => exact ⟨[], c :: cs, rfl, rfl, by rw [encodeUtf8, List.flatMap_cons]; exact h⟩
            | cons a as =>
                -- in the middle of a character there is no ASCII
                have hb : b < 128 := hbs b (by rw [hmore]; rfl)
                have hlt : (a :: as).length < (String.utf8EncodeChar c).length := by simp [hc]
                have hget : (String.utf8EncodeChar c)[(a :: as).length] = b := by simp [hc]
                have hfirst : b.IsUTF8FirstByte := by
                  left
                  have hall : ∀ n : Fin 256, UInt8.ofNat n < 128 → UInt8.ofNat n &&& 0x80 = 0 := by
                    decide +kernel
                  have hsome := hall ⟨b.toNat, b.toNat_lt⟩
                  simp only [UInt8.ofNat_toNat] at hsome
                  exact hsome hb
                rw [← hget, UInt8.isUTF8FirstByte_getElem_utf8EncodeChar] at hfirst
                simp at hfirst

/-! ## parts -/

/-- A piece of a text: a tag, text without tags, or an element with a part, written as it
comes, and something after it. -/
inductive Part where
  | markup (body : List UInt8)
  | data (bytes : List UInt8)
  | field (nm raw tail : List UInt8)

namespace Part

/-- The bytes of a piece. -/
def bytes : Part → List UInt8
  | markup body => 60 :: (body ++ [62])
  | data bytes => bytes
  | field nm raw tail => 60 :: (nm ++ 62 :: (raw ++ (tail ++ 60 :: 47 :: (nm ++ [62]))))

/-- Everything in a piece but its part is ASCII, and a part is not followed by a
newline. -/
def Ascii : Part → Prop
  | markup body => ∀ b ∈ body, b < 128 ∧ b ≠ 13
  | data bytes => ∀ b ∈ bytes, b < 128 ∧ b ≠ 13
  | field nm _ tail => (∀ b ∈ nm, b < 128 ∧ b ≠ 13) ∧ ∀ b ∈ tail, b < 128 ∧ b ≠ 13 ∧ b ≠ 10

/-- The characters of a piece, as the reader takes them. -/
inductive Reads : Part → Piece → Prop where
  | markup (body : List UInt8) : Reads (markup body) (.markup (latin1 body))
  | data (bytes : List UInt8) : Reads (data bytes) (.data (latin1 bytes))
  | field (nm tail : List UInt8) (cs : List Char) :
      Reads (field nm (encodeUtf8 cs) tail) (.field (latin1 nm) (normalizeEol cs ++ latin1 tail))

end Part

theorem cr_notMem_latin1 {bytes : List UInt8} (h : ∀ b ∈ bytes, b ≠ 13) : '\r' ∉ latin1 bytes :=
  fun hm => h 13 ((mem_latin1 (b := 13)).mp hm) rfl

/-- A piece at the front of a text is read as such. -/
theorem Part.Ascii.reads {p : Part} (hp : p.Ascii) {cs : List Char} {rest : List UInt8}
    (h : encodeUtf8 cs = p.bytes ++ rest) :
    ∃ q ds, p.Reads q ∧ encodeUtf8 ds = rest ∧ normalizeEol cs = q.chars ++ normalizeEol ds := by
  cases p with
  | markup body =>
      have hall : ∀ b ∈ (Part.markup body).bytes, b < 128 ∧ b ≠ 13 := by
        intro b hb
        simp only [bytes, List.mem_cons, List.mem_append, List.not_mem_nil, or_false] at hb
        rcases hb with rfl | hb | rfl
        · decide
        · exact hp b hb
        · decide
      obtain ⟨ds, rfl, hds⟩ := encodeUtf8_ascii_append (fun b hb => (hall b hb).1) h
      refine ⟨_, ds, .markup body, hds, ?_⟩
      rw [Xml.normalizeEol_append_of_notMem (cr_notMem_latin1 fun b hb => (hall b hb).2)]
      simp [bytes, Piece.chars]
  | data frame =>
      obtain ⟨ds, rfl, hds⟩ := encodeUtf8_ascii_append (fun b hb => (hp b hb).1) h
      exact ⟨_, ds, .data frame, hds,
        Xml.normalizeEol_append_of_notMem (cr_notMem_latin1 fun b hb => (hp b hb).2)⟩
  | field nm raw tail =>
      have hopen : ∀ b ∈ 60 :: (nm ++ [62]), b < 128 ∧ b ≠ 13 := by
        intro b hb
        simp only [List.mem_cons, List.mem_append, List.not_mem_nil, or_false] at hb
        rcases hb with rfl | hb | rfl
        · decide
        · exact hp.1 b hb
        · decide
      have hclose : ∀ b ∈ tail ++ 60 :: 47 :: (nm ++ [62]), b < 128 ∧ b ≠ 13 := by
        intro b hb
        simp only [List.mem_cons, List.mem_append, List.not_mem_nil, or_false] at hb
        rcases hb with hb | rfl | rfl | hb | rfl
        · exact ⟨(hp.2 b hb).1, (hp.2 b hb).2.1⟩
        · decide
        · decide
        · exact hp.1 b hb
        · decide
      have hhead : ∀ b ∈ (tail ++ 60 :: 47 :: (nm ++ [62]) ++ rest).head?, b < 128 ∧ b ≠ 10 := by
        cases tail with
        | nil =>
            intro b hb
            cases hb
            decide
        | cons c tail =>
            intro b hb
            cases hb
            exact ⟨(hp.2 c List.mem_cons_self).1, (hp.2 c List.mem_cons_self).2.2⟩
      have hbytes : encodeUtf8 cs =
          (60 :: (nm ++ [62])) ++ (raw ++ (tail ++ 60 :: 47 :: (nm ++ [62]) ++ rest)) := by
        rw [h]
        simp [bytes]
      obtain ⟨ds, rfl, hds⟩ := encodeUtf8_ascii_append (fun b hb => (hopen b hb).1) hbytes
      obtain ⟨es, fs, rfl, rfl, hfs⟩ := encodeUtf8_split hds fun b hb => (hhead b hb).1
      obtain ⟨gs, rfl, hgs⟩ := encodeUtf8_ascii_append (fun b hb => (hclose b hb).1) hfs
      refine ⟨_, gs, .field nm tail es, hgs, ?_⟩
      have hlf : ∀ c ∈ (latin1 (tail ++ 60 :: 47 :: (nm ++ [62])) ++ gs).head?, c ≠ '\n' := by
        cases tail with
        | nil =>
            intro c hc
            cases hc
            decide
        | cons b tail =>
            intro c hc he
            cases hc
            exact (hhead b rfl).2 (latin1_inj he)
      rw [Xml.normalizeEol_append_of_notMem (cr_notMem_latin1 fun b hb => (hopen b hb).2),
        Xml.normalizeEol_append hlf,
        Xml.normalizeEol_append_of_notMem (cr_notMem_latin1 fun b hb => (hclose b hb).2)]
      simp [Piece.chars]

/-- A text of such pieces is read as such. -/
theorem reads_parts {ps : List Part} (hps : ∀ p ∈ ps, p.Ascii) {cs : List Char}
    (h : encodeUtf8 cs = ps.flatMap Part.bytes) :
    ∃ qs, List.Forall₂ Part.Reads ps qs ∧ normalizeEol cs = frameText qs := by
  induction ps generalizing cs with
  | nil =>
      cases cs with
      | nil => exact ⟨[], .nil, rfl⟩
      | cons c cs =>
          have hlen := congrArg List.length h
          rw [encodeUtf8, List.flatMap_cons, List.length_append,
            String.length_utf8EncodeChar] at hlen
          have hpos := c.utf8Size_pos
          simp only [List.flatMap_nil, List.length_nil] at hlen
          omega
  | cons p ps ih =>
      obtain ⟨hp, hmore⟩ := List.forall_mem_cons.mp hps
      rw [List.flatMap_cons] at h
      obtain ⟨q, ds, hq, hds, heq⟩ := hp.reads h
      obtain ⟨qs, hqs, hnorm⟩ := ih hmore hds
      refine ⟨q :: qs, .cons hq hqs, ?_⟩
      rw [heq, hnorm, frameText, frameText, List.flatMap_cons]

/-! ## reading the parts back -/

theorem Xml.IsData.left {cs ds : List Char} (h : Xml.IsData (cs ++ ds)) : Xml.IsData cs :=
  ⟨fun hm => h.lt (List.mem_append_left ds hm), fun hm => h.amp (List.mem_append_left ds hm),
    fun hi => h.cdataEnd (hi.trans (List.prefix_append cs ds).isInfix)⟩

theorem Xml.mem_frameText {qs : List Piece} {l : List Char × List Char} (hl : l ∈ Xml.partsOf qs)
    {c : Char} (hc : c ∈ l.2) : c ∈ frameText qs := by
  obtain ⟨q, hq, he⟩ := List.mem_filterMap.mp hl
  refine List.mem_flatMap.mpr ⟨q, hq, ?_⟩
  cases q with
  | field nm value =>
      cases he
      simp [Piece.chars, hc]
  | markup body => cases he
  | data ds => cases he

/-- Text that an element may hold as it is. -/
def IsPlainText (bytes : List UInt8) : Prop :=
  ∃ cs, encodeUtf8 cs = bytes ∧ Xml.IsData cs ∧ ∀ c ∈ cs, Xml.isChar c ∧ c ≠ '\r'

namespace Part

/-- The part of a piece, and what is written around it. -/
def part : Part → Option (List UInt8 × List UInt8 × List UInt8)
  | field nm raw tail => some (nm, raw, tail)
  | _ => none

@[simp] theorem part_markup (body : List UInt8) : (markup body).part = none := rfl

@[simp] theorem part_data (bytes : List UInt8) : (data bytes).part = none := rfl

@[simp] theorem part_field (nm raw tail : List UInt8) :
    (field nm raw tail).part = some (nm, raw, tail) := rfl

/-- The frame of parts in elements with the given names. -/
def Framed (nms : List (List Char)) : Part → Prop
  | markup body => 60 ∉ body ∧ Xml.tagName (latin1 body) ∉ nms
  | data bytes => 60 ∉ bytes
  | field nm _ _ => latin1 nm ∈ nms ∧ Xml.IsName (latin1 nm)

theorem Reads.framed {nms : List (List Char)} {p : Part} {q : Piece} (h : p.Reads q)
    (hp : p.Framed nms) : q.Framed nms := by
  cases h with
  | markup body => exact ⟨fun hm => hp.1 ((mem_latin1 (b := 60)).mp hm), hp.2⟩
  | data bytes => exact fun hm => hp ((mem_latin1 (b := 60)).mp hm)
  | field nm tail cs => exact hp

end Part

theorem normalizeEol_length_le (cs : List Char) : (normalizeEol cs).length ≤ cs.length := by
  fun_induction normalizeEol cs with
  | case1 => exact Nat.le_refl _
  | case2 cs ih => simp; omega
  | case3 cs _ ih => simpa using ih
  | case4 c cs _ _ ih => simpa using ih

theorem cr_notMem_normalizeEol (cs : List Char) : '\r' ∉ normalizeEol cs := by
  fun_induction normalizeEol cs with
  | case1 => simp
  | case2 cs ih => simp [ih]
  | case3 cs _ ih => simp [ih]
  | case4 c cs _ hc ih => simp [ih, Ne.symm hc]

/-- A part as it is read. -/
def ReadAs (part : List UInt8 × List UInt8 × List UInt8) (l : List Char × List Char) : Prop :=
  ∃ cs, encodeUtf8 cs = part.2.1 ∧
    l = (latin1 part.1, normalizeEol cs ++ latin1 part.2.2)

theorem partsOf_reads {ps : List Part} {qs : List Piece} (h : List.Forall₂ Part.Reads ps qs) :
    List.Forall₂ ReadAs (ps.filterMap Part.part) (Xml.partsOf qs) := by
  induction h with
  | nil => exact .nil
  | cons hq _ ih =>
      cases hq with
      | markup body => exact ih
      | data bytes => exact ih
      | field nm tail cs => exact .cons ⟨cs, rfl, rfl⟩ ih

/-- A leaf that gives a part back. -/
def GivesBack (part : List UInt8 × List UInt8 × List UInt8) (l : List Char × List Char) : Prop :=
  l.1 = latin1 part.1 ∧ encodeUtf8 l.2 = part.2.1 ++ part.2.2

theorem encodeUtf8_inj {cs ds : List Char} (h : encodeUtf8 cs = encodeUtf8 ds) : cs = ds := by
  have hdec := congrArg Xml.decodeUtf8 h
  simpa using hdec

/-- The text of such a leaf: the characters of the part, before the reader takes them. -/
theorem GivesBack.text {part} {l : List Char × List Char} {cs : List Char} (h : GivesBack part l)
    (htail : ∀ b ∈ part.2.2, b < 128) (hcs : encodeUtf8 cs = part.2.1) :
    l.2 = cs ++ latin1 part.2.2 := by
  apply encodeUtf8_inj
  rw [h.2, Xml.encodeUtf8_append, hcs, encodeUtf8_latin1 htail]

theorem exists_of_forall₂ {α β : Type} {R : α → β → Prop} {as : List α} {bs : List β}
    (h : List.Forall₂ R as bs) {a : α} (ha : a ∈ as) : ∃ b ∈ bs, R a b := by
  induction h with
  | nil => cases ha
  | cons hab _ ih =>
      rcases List.mem_cons.mp ha with rfl | ha
      · exact ⟨_, List.mem_cons_self, hab⟩
      · obtain ⟨b, hb, hrel⟩ := ih ha
        exact ⟨b, List.mem_cons_of_mem _ hb, hrel⟩

/-- What a reader gets back is no shorter than what it reads. -/
theorem givesBack_length_le {parts : List (List UInt8 × List UInt8 × List UInt8)}
    {vs ls : List (List Char × List Char)} (htail : ∀ part ∈ parts, ∀ b ∈ part.2.2, b < 128)
    (hvs : List.Forall₂ ReadAs parts vs) (hls : List.Forall₂ GivesBack parts ls) :
    List.Forall₂ (fun v l => v.1 = l.1 ∧ v.2.length ≤ l.2.length) vs ls := by
  induction hvs generalizing ls with
  | nil =>
      cases hls
      exact .nil
  | cons hv _ ih =>
      obtain ⟨hpart, hmore⟩ := List.forall_mem_cons.mp htail
      cases hls with
      | cons hl hls =>
          refine .cons ?_ (ih hmore hls)
          obtain ⟨cs, hcs, rfl⟩ := hv
          refine ⟨hl.1.symm, ?_⟩
          have hle := normalizeEol_length_le cs
          rw [hl.text hpart hcs]
          simp only [List.length_append]
          omega

/-- A reader gets the parts back only if each of them is plain text. -/
theorem plain_of_visits {nms : List (List Char)} {ps : List Part} (hascii : ∀ p ∈ ps, p.Ascii)
    (hframed : ∀ p ∈ ps, p.Framed nms) {cs rest : List Char} {ls : List (List Char × List Char)}
    (henc : encodeUtf8 cs = ps.flatMap Part.bytes) (hchar : ∀ c ∈ normalizeEol cs, Xml.isChar c)
    (hvisits : Xml.Visits ls (normalizeEol cs) rest)
    (hls : List.Forall₂ GivesBack (ps.filterMap Part.part) ls) :
    ∀ part ∈ ps.filterMap Part.part, IsPlainText part.2.1 := by
  obtain ⟨qs, hqs, hnorm⟩ := reads_parts hascii henc
  have htail : ∀ part ∈ ps.filterMap Part.part, ∀ b ∈ part.2.2, b < 128 := by
    intro part hpart b hb
    obtain ⟨p, hp, he⟩ := List.mem_filterMap.mp hpart
    cases p with
    | field nm raw tail =>
        cases he
        exact ((hascii _ hp).2 b hb).1
    | markup body => cases he
    | data bytes => cases he
  have hparts := partsOf_reads hqs
  have hqs' : ∀ q ∈ qs, q.Framed nms := by
    intro q hq
    obtain ⟨p, hp, hread⟩ := exists_of_forall₂ hqs.flip hq
    exact hread.framed (hframed p hp)
  obtain ⟨-, rfl, hdata⟩ :=
    hvisits.frame hqs' (hnorm ▸ List.suffix_refl _) (givesBack_length_le htail hparts hls)
  intro part hpart
  obtain ⟨l, hl, ⟨es, hes, rfl⟩, hback⟩ :=
    exists_of_forall₂ (hparts.mp (fun _ _ hread hback => And.intro hread hback) hls) hpart
  have hsame : normalizeEol es = es :=
    List.append_cancel_right (hback.text (htail part hpart) hes)
  have hvalue := hdata _ hl
  rw [hsame] at hvalue
  refine ⟨es, hes, hvalue.left, fun c hc => ⟨?_, ?_⟩⟩
  · -- the part is read as it is
    apply hchar
    rw [hnorm]
    exact Xml.mem_frameText hl (by rw [hsame]; exact List.mem_append_left _ hc)
  · rintro rfl
    exact cr_notMem_normalizeEol es (hsame.symm ▸ hc)

end LibCheck
