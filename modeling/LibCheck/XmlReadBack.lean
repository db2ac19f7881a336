import LibCheck.XmlLog

/-!
# LibCheck.XmlReadBack

What a reader of XML finds in the log that `xml_lfun` writes.

Names of suites and of test cases and messages go through the escaper; the
source path, cut into path and file name, and the name of a test do not.

* `Rejoins` — path and file name of a source path.
* `Reports` — an element gives a result back.
* `plain_of_reports` — if a reader gets the results back, what is not escaped is
  plain text.
* `Carries`, `reports_of_plain` — if it is, a reader gets them back.
* `xml_read_back_iff` — both.
-/

namespace LibCheck

open Xml (encodeUtf8 Node IsData)

/-! ## path and file name -/

/-- The source path that a path and a file name are the parts of: they are cut at the
last slash, else at the last backslash; a file without either is in `.`, and a null
pointer leaves nothing. -/
def Rejoins : Option CStr → List UInt8 → List UInt8 → Prop
  | none, path, name => path = [] ∧ name = []
  | some file, path, name =>
      (file.bytes = path ++ 47 :: name ∧ 47 ∉ name) ∨
        (47 ∉ file.bytes ∧ file.bytes = path ++ 92 :: name ∧ 92 ∉ name) ∨
        (47 ∉ file.bytes ∧ 92 ∉ file.bytes ∧ path = text "." ∧ name = file.bytes)

theorem splitLast_of_notMem {c : UInt8} {bytes : List UInt8} (h : c ∉ bytes) :
    splitLast c bytes = none := if_neg h

theorem splitLast_append {c : UInt8} (as : List UInt8) {bs : List UInt8} (h : c ∉ bs) :
    splitLast c (as ++ c :: bs) = some (as, bs) := by
  have hne : ∀ b ∈ bs.reverse, decide (b ≠ c) = true := fun b hb =>
    decide_eq_true fun he => h (he ▸ List.mem_reverse.mp hb)
  have hrev : (as ++ c :: bs).reverse = bs.reverse ++ c :: as.reverse := by simp
  rw [splitLast, if_pos (by simp), hrev, List.dropWhile_append_of_pos hne,
    List.takeWhile_append_of_pos hne]
  simp

/-- Where there is a byte, there is a last one. -/
theorem exists_last {c : UInt8} {bytes : List UInt8} (h : c ∈ bytes) :
    ∃ as bs, bytes = as ++ c :: bs ∧ c ∉ bs := by
  obtain ⟨bs, as, hrev, hbs⟩ := List.eq_append_cons_of_mem (List.mem_reverse.mpr h)
  refine ⟨as.reverse, bs.reverse, ?_, by simpa using hbs⟩
  have hbytes := congrArg List.reverse hrev
  simpa using hbytes

/-- `tr_xmlprint` cuts the source path into such parts, and no others rejoin to it. -/
theorem rejoins_iff {file : Option CStr} {path name : List UInt8} :
    Rejoins file path name ↔ xmlPathName file = (path, name) := by
  cases file with
  | none => simp [Rejoins, xmlPathName, eq_comm]
  | some file =>
      rw [Rejoins, xmlPathName]
      by_cases hslash : 47 ∈ file.bytes
      · obtain ⟨as, bs, hbytes, hbs⟩ := exists_last hslash
        have hsplit := splitLast_append as hbs
        rw [hbytes, hsplit]
        simp only [Prod.mk.injEq]
        constructor
        · rintro (⟨he, hname⟩ | ⟨hno, -⟩ | ⟨hno, -⟩)
          · rw [he, splitLast_append path hname] at hsplit
            cases hsplit
            exact ⟨rfl, rfl⟩
          · exact absurd (by simp) hno
          · exact absurd (by simp) hno
        · rintro ⟨rfl, rfl⟩
          exact .inl ⟨rfl, hbs⟩
      · rw [splitLast_of_notMem hslash]
        by_cases hback : 92 ∈ file.bytes
        · obtain ⟨as, bs, hbytes, hbs⟩ := exists_last hback
          have hsplit := splitLast_append as hbs
          rw [hbytes, hsplit]
          rw [hbytes] at hslash hback
          simp only [Prod.mk.injEq]
          constructor
          · rintro (⟨he, -⟩ | ⟨-, he, hname⟩ | ⟨-, hno, -⟩)
            · exact absurd (by simp [he]) hslash
            · rw [he, splitLast_append path hname] at hsplit
              cases hsplit
              exact ⟨rfl, rfl⟩
            · exact absurd hback hno
          · rintro ⟨rfl, rfl⟩
            exact .inr (.inl ⟨hslash, rfl, hbs⟩)
        · rw [splitLast_of_notMem hback]
          simp only [Prod.mk.injEq]
          constructor
          · rintro (⟨he, -⟩ | ⟨-, he, -⟩ | ⟨-, -, rfl, rfl⟩)
            · exact absurd (by simp [he]) hslash
            · exact absurd (by simp [he]) hback
            · exact ⟨rfl, rfl⟩
          · rintro ⟨rfl, rfl⟩
            exact .inr (.inr ⟨hslash, hback, rfl, rfl⟩)

/-! ## what should be read back -/

/-- An element gives a result back: its path and file name rejoin to the source path, the
file name stands before the line, and its id is the name of the test. -/
def Reports (tr : TestResult) (e : Node) : Prop :=
  ∃ path fn id more, Xml.fields e.children =
      some (("path".toList, path) :: ("fn".toList, fn) :: ("id".toList, id) :: more) ∧
    ∃ fileName tname, Rejoins tr.file (encodeUtf8 path) fileName ∧
      encodeUtf8 fn = fileName ++ (text ":" ++ fmtInt tr.line.toInt) ∧
      tr.tname = some tname ∧ encodeUtf8 id = tname.bytes

/-- The source path and the name of a test can be written as they are. -/
structure PlainSource (tr : TestResult) : Prop where
  file : ∀ file, tr.file = some file → IsPlainText file.bytes
  tname : ∀ tname, tr.tname = some tname → IsPlainText tname.bytes

theorem Reports.givesBack {tr : TestResult} {e : Node} (h : Reports tr e) :
    ∃ fs more, Xml.fields e.children = some (fs ++ more) ∧
      List.Forall₂ GivesBack (rawFields tr) fs := by
  obtain ⟨path, fn, id, more, hfields, fileName, tname, hfile, hfn, htname, hid⟩ := h
  have hpath := rejoins_iff.mp hfile
  refine ⟨[("path".toList, path), ("fn".toList, fn), ("id".toList, id)], more, hfields, ?_⟩
  have hnames : latin1 (text "path") = "path".toList ∧ latin1 (text "fn") = "fn".toList ∧
      latin1 (text "id") = "id".toList := by decide
  refine .cons ⟨hnames.1.symm, ?_⟩ (.cons ⟨hnames.2.1.symm, ?_⟩ (.cons ⟨hnames.2.2.symm, ?_⟩ .nil))
  · simp [hpath]
  · simp [hpath, hfn]
  · simp [htname, hid, fmtStr]

theorem encodeUtf8_of_decodeUtf8 {bytes : List UInt8} {cs : List Char}
    (h : Xml.decodeUtf8 bytes = some cs) : encodeUtf8 cs = bytes := by
  obtain ⟨arr, harr, rfl⟩ := Option.map_eq_some_iff.mp h
  have hsome : bytes.toByteArray.utf8Decode?.isSome := by rw [harr]; rfl
  have henc := ByteArray.utf8Encode_get_utf8Decode? (h := hsome)
  simp only [harr, Option.get_some] at henc
  have hlist := congrArg (fun b => b.data.toList) henc
  simpa [List.utf8Encode, encodeUtf8] using hlist

/-- If a reader gets the results back, everything that is written as it comes is plain
text. -/
theorem plain_of_reports {x : Ctx} {clock : XmlClock} {suites : List (CStr × List TestResult)}
    (hdate : IsDate clock.datetime) (hprinted : ∀ s ∈ suites, ∀ tr ∈ s.2, Printed tr) {root : Node}
    (hread : Xml.readBytes (logText x clock suites) = some root)
    (hreports : List.Forall₂ Reports (suites.flatMap Prod.snd) (root.named "test".toList)) :
    ∀ part ∈ (suites.flatMap Prod.snd).flatMap rawFields, IsPlainText part.2.1 := by
  obtain ⟨cs, hdec, hchar, hvisits⟩ := Xml.visits_readBytes hread
  have hframe := inFrame_logParts (x := x) hdate hprinted
  have hleaves := @Xml.Node.fields_sublist "test".toList
    (fun e => (Xml.fields e.children).getD []) root fun e he => by
      obtain ⟨tr, -, htr⟩ := exists_of_forall₂ hreports.flip he
      obtain ⟨_, _, hfields, -⟩ := Reports.givesBack htr
      rw [hfields, Option.getD_some]
  have hgives : ∃ ls, ls.Sublist ((root.named "test".toList).flatMap
      fun e => (Xml.fields e.children).getD []) ∧
        List.Forall₂ GivesBack ((suites.flatMap Prod.snd).flatMap rawFields) ls := by
    generalize root.named "test".toList = es at hreports
    generalize suites.flatMap Prod.snd = results at hreports
    induction hreports with
    | nil => exact ⟨[], List.Sublist.refl _, .nil⟩
    | cons htr _ ih =>
        obtain ⟨fs, more, hfields, hfs⟩ := htr.givesBack
        obtain ⟨ls, hls, hback⟩ := ih
        refine ⟨fs ++ ls, ?_, ?_⟩
        · rw [List.flatMap_cons, hfields, Option.getD_some]
          exact (List.sublist_append_left fs more).append hls
        · rw [List.flatMap_cons]
          exact List.rel_append hfs hback
  obtain ⟨ls, hls, hback⟩ := hgives
  rw [← part_logParts x clock] at hback ⊢
  refine plain_of_visits (fun p hp => (hframe p hp).1) (fun p hp => (hframe p hp).2) ?_ hchar
    (hvisits.sublist (hls.trans hleaves)) hback
  rw [← logText_eq hprinted]
  exact encodeUtf8_of_decodeUtf8 hdec


/-! ## plain text -/

/-- Text with a character between that cannot be part of `]]>`. -/
theorem isData_append {cs ds : List Char} {c : Char} (hcs : IsData cs) (hds : IsData (c :: ds))
    (hbr : c ≠ ']') (hgt : c ≠ '>') : IsData (cs ++ c :: ds) := by
  induction cs with
  | nil => exact hds
  | cons d cs ih =>
      have htail : IsData cs :=
        ⟨fun hm => hcs.lt (List.mem_cons_of_mem d hm), fun hm =>
          hcs.amp (List.mem_cons_of_mem d hm),
          fun hi => hcs.cdataEnd (hi.trans (List.infix_cons (List.infix_refl cs)))⟩
      have hlt : d ≠ '<' := fun he => hcs.lt (he ▸ List.mem_cons_self)
      have hamp : d ≠ '&' := fun he => hcs.amp (he ▸ List.mem_cons_self)
      refine (ih htail).cons hlt hamp fun hend => ?_
      obtain ⟨rfl, t, ht⟩ := hend
      -- the `]>` would have to lie in front of the character
      match cs with
      | [] =>
          cases ht
          exact hbr rfl
      | [e] =>
          cases ht
          exact hgt rfl
      | e :: f :: cs =>
          cases ht
          exact hcs.cdataEnd ⟨[], cs, rfl⟩

theorem isData_of_frame (bytes : List UInt8) (h : ∀ b ∈ bytes, b ∉ [(60 : UInt8), 38, 62]) :
    IsData (latin1 bytes) := by
  refine ⟨fun hm => ?_, fun hm => ?_, fun hi => ?_⟩
  · exact h 60 ((mem_latin1 (b := 60)).mp hm) (by simp)
  · exact h 38 ((mem_latin1 (b := 38)).mp hm) (by simp)
  · exact h 62 ((mem_latin1 (b := 62)).mp (hi.subset (by simp))) (by simp)

/-- A separator of path names cuts plain text into plain text. -/
theorem isPlainText_append {c : UInt8} (hc : c = 47 ∨ c = 92) {as bs : List UInt8} :
    IsPlainText (as ++ c :: bs) ↔ IsPlainText as ∧ IsPlainText bs := by
  have hascii : c < 128 := by rcases hc with rfl | rfl <;> decide
  have hchar : IsData [Char.ofNat c.toNat] ∧ Char.ofNat c.toNat ≠ ']' ∧ Char.ofNat c.toNat ≠ '>' ∧
      Char.ofNat c.toNat ≠ '<' ∧ Char.ofNat c.toNat ≠ '&' ∧ Xml.isChar (Char.ofNat c.toNat) ∧
      Char.ofNat c.toNat ≠ '\r' := by
    rcases hc with rfl | rfl
    · exact ⟨isData_of_frame [47] (by decide), by decide⟩
    · exact ⟨isData_of_frame [92] (by decide), by decide⟩
  obtain ⟨-, hbr, hgt, hlt, hamp, hxml, hcr⟩ := hchar
  constructor
  · intro ⟨cs, henc, hdata, hchars⟩
    obtain ⟨ds, es, rfl, hds, hes⟩ := encodeUtf8_split henc (fun b hb => by cases hb; exact hascii)
    obtain ⟨fs, rfl, hfs⟩ := @encodeUtf8_ascii_append _ [c] _ (by simpa using hascii) hes
    have hright : IsData (latin1 [c] ++ fs) :=
      ⟨fun hm => hdata.lt (List.mem_append_right ds hm), fun hm =>
        hdata.amp (List.mem_append_right ds hm),
        fun hi => hdata.cdataEnd (hi.trans (List.suffix_append ds _).isInfix)⟩
    have hfs' : IsData fs :=
      ⟨fun hm => hright.lt (List.mem_append_right _ hm), fun hm =>
        hright.amp (List.mem_append_right _ hm),
        fun hi => hright.cdataEnd (hi.trans (List.suffix_append _ fs).isInfix)⟩
    exact ⟨⟨ds, hds, hdata.left, fun d hd => hchars d (List.mem_append_left _ hd)⟩,
      ⟨fs, hfs, hfs', fun d hd => hchars d (List.mem_append_right _ (List.mem_append_right _ hd))⟩⟩
  · intro ⟨⟨ds, hds, hdata, hchars⟩, es, hes, hdata', hchars'⟩
    refine ⟨ds ++ Char.ofNat c.toNat :: es, ?_, ?_, ?_⟩
    · have hone := @encodeUtf8_latin1 [c] (by simpa using hascii)
      have hcons : Char.ofNat c.toNat :: es = latin1 [c] ++ es := rfl
      rw [hcons, Xml.encodeUtf8_append, Xml.encodeUtf8_append, hone, hds, hes]
      rfl
    · exact isData_append hdata (hdata'.cons hlt hamp fun he => hbr he.1) hbr hgt
    · intro d hd
      rcases List.mem_append.mp hd with hd | hd
      · exact hchars d hd
      · rcases List.mem_cons.mp hd with rfl | hd
        · exact ⟨hxml, hcr⟩
        · exact hchars' d hd

theorem isPlainText_nil : IsPlainText [] := ⟨[], rfl, .nil, by simp⟩

/-- What is written as it comes of a result is plain text if and only if the source path
and the name of the test are. -/
theorem plainSource_iff {tr : TestResult} (htname : tr.tname ≠ none) :
    (∀ part ∈ rawFields tr, IsPlainText part.2.1) ↔ PlainSource tr := by
  obtain ⟨tname, htname⟩ := Option.ne_none_iff_exists'.mp htname
  have hname : IsPlainText (fmtStr tr.tname) ↔ ∀ s, tr.tname = some s → IsPlainText s.bytes := by
    simp [htname, fmtStr]
  have hdot : IsPlainText (text ".") := ⟨['.'], by decide, by
    have hdata := isData_of_frame [46] (by decide)
    exact hdata, by decide⟩
  have hfile : (IsPlainText (xmlPathName tr.file).1 ∧ IsPlainText (xmlPathName tr.file).2) ↔
      ∀ s, tr.file = some s → IsPlainText s.bytes := by
    cases hf : tr.file with
    | none => simp [xmlPathName, isPlainText_nil]
    | some file =>
        have hrejoin : Rejoins (some file) (xmlPathName (some file)).1
            (xmlPathName (some file)).2 :=
          rejoins_iff.mpr rfl
        simp only [Option.some.injEq, forall_eq']
        rcases hrejoin with ⟨he, -⟩ | ⟨-, he, -⟩ | ⟨-, -, hpath, he⟩
        · rw [he, isPlainText_append (.inl rfl)]
        · rw [he, isPlainText_append (.inr rfl)]
        · rw [hpath, he]
          exact and_iff_right hdot
  simp only [rawFields, List.forall_mem_cons, List.not_mem_nil, IsEmpty.forall_iff, implies_true,
    and_true, hname]
  rw [← and_assoc, hfile]
  exact ⟨fun h => ⟨h.1, h.2⟩, fun h => ⟨h.1, h.2⟩⟩


/-! ## text that holds something -/

/-- Bytes that stand for characters which a document may hold and the reader leaves as
they are. -/
structure Encodes (bytes : List UInt8) (cs : List Char) : Prop where
  encode : encodeUtf8 cs = bytes
  chars : ∀ c ∈ cs, Xml.isChar c ∧ c ≠ '\r'

/-- In front of any content, the bytes hold `nodes`. -/
def Holds (bytes : List UInt8) (nodes : List Node) : Prop :=
  ∃ cs, Encodes bytes cs ∧ Xml.Solid cs nodes

/-- In front of a tag, the bytes hold `nodes`. -/
def Fills (bytes : List UInt8) (nodes : List Node) : Prop :=
  ∃ cs, Encodes bytes cs ∧ Xml.Yields cs nodes

theorem Encodes.nil : Encodes [] [] := ⟨rfl, by simp⟩

theorem Encodes.append {as bs : List UInt8} {cs ds : List Char} (ha : Encodes as cs)
    (hb : Encodes bs ds) : Encodes (as ++ bs) (cs ++ ds) := by
  refine ⟨by rw [Xml.encodeUtf8_append, ha.encode, hb.encode], fun c hc => ?_⟩
  rcases List.mem_append.mp hc with hc | hc
  · exact ha.chars c hc
  · exact hb.chars c hc

/-- Printable ASCII and line feeds. -/
theorem Encodes.ascii {bytes : List UInt8} (h : ∀ b ∈ bytes, b = 10 ∨ 32 ≤ b ∧ b ≤ 126) :
    Encodes bytes (latin1 bytes) := by
  refine ⟨encodeUtf8_latin1 fun b hb => ?_, fun c hc => ?_⟩
  · rcases h b hb with rfl | ⟨-, hle⟩
    · decide
    · exact UInt8.lt_of_le_of_lt hle (by decide)
  · obtain ⟨b, hb, rfl⟩ := List.mem_map.mp hc
    have hall : ∀ n : Fin 256, UInt8.ofNat n = 10 ∨ 32 ≤ UInt8.ofNat n ∧ UInt8.ofNat n ≤ 126 →
        Xml.isChar (Char.ofNat (UInt8.ofNat n).toNat) ∧
          Char.ofNat (UInt8.ofNat n).toNat ≠ '\r' := by
      decide +kernel
    have hsome := hall ⟨b.toNat, b.toNat_lt⟩
    simp only [UInt8.ofNat_toNat] at hsome
    exact hsome (h b hb)

theorem Holds.nil : Holds [] [] := ⟨[], .nil, .nil⟩

theorem Holds.append {as bs : List UInt8} {ns ms : List Node} (ha : Holds as ns)
    (hb : Holds bs ms) :
    Holds (as ++ bs) (ns ++ ms) := by
  obtain ⟨cs, hcs, hns⟩ := ha
  obtain ⟨ds, hds, hms⟩ := hb
  exact ⟨cs ++ ds, hcs.append hds, hns.append hms⟩

theorem Holds.fills {bytes : List UInt8} {nodes : List Node} (h : Holds bytes nodes) :
    Fills bytes nodes := by
  obtain ⟨cs, hcs, hnodes⟩ := h
  exact ⟨cs, hcs, hnodes.yields⟩

/-- Blanks and line feeds between elements. -/
def IsBlank (bytes : List UInt8) : Prop := ∀ b ∈ bytes, b = 10 ∨ b = 32

instance (bytes : List UInt8) : Decidable (IsBlank bytes) :=
  inferInstanceAs (Decidable (∀ _ ∈ _, _))

theorem holds_text {bytes : List UInt8} (h : ∀ b ∈ bytes, IsFrameByte b ∧ b ≠ 38 ∧ b ≠ 93) :
    Holds bytes ((latin1 bytes).map .char) := by
  refine ⟨_, .ascii fun b hb => (h b hb).1.1, .text fun c hc => ?_⟩
  obtain ⟨b, hb, rfl⟩ := List.mem_map.mp hc
  obtain ⟨hframe, hamp, hbr⟩ := h b hb
  exact ⟨fun he => hframe.2 (latin1_inj (b := 60) he), fun he => hamp (latin1_inj (b := 38) he),
    fun he => hbr (latin1_inj (b := 93) he)⟩

theorem holds_blank {bytes : List UInt8} (h : IsBlank bytes) :
    Holds bytes ((latin1 bytes).map .char) := by
  refine holds_text fun b hb => ?_
  rcases h b hb with rfl | rfl <;> decide

theorem holds_number {bytes : List UInt8} (h : ∀ b ∈ bytes, IsNumberByte b) :
    Holds bytes ((latin1 bytes).map .char) := by
  refine holds_text fun b hb => ⟨(h b hb).frame, ?_, ?_⟩
  · rintro rfl
    exact absurd (h 38 hb) (by unfold IsNumberByte; decide)
  · rintro rfl
    exact absurd (h 93 hb) (by unfold IsNumberByte; decide)

theorem fills_plain {bytes : List UInt8} (h : IsPlainText bytes) :
    ∃ cs, encodeUtf8 cs = bytes ∧ Fills bytes (cs.map .char) := by
  obtain ⟨cs, henc, hdata, hchars⟩ := h
  exact ⟨cs, henc, cs, ⟨henc, hchars⟩, .data hdata⟩

theorem fills_xmlEsc (cfg : Config) (str : CStr) :
    Fills (fprintXmlEsc cfg str) ((latin1 (str.bytes.filter (kept cfg))).map .char) :=
  ⟨_, .ascii fun _ hb => (fprintXmlEsc_frame hb).1, yields_escapes cfg str.bytes⟩

/-- A name of an element, as bytes. -/
structure IsTagName (nm : List UInt8) : Prop where
  ascii : ∀ b ∈ nm, b = 10 ∨ 32 ≤ b ∧ b ≤ 126
  isName : Xml.IsName (latin1 nm)

/-- An element with a start tag. -/
theorem Fills.elem {start inner nm : List UInt8} {atts} {nodes : List Node} (hnm : IsTagName nm)
    (hstart : ∀ b ∈ start, b = 10 ∨ 32 ≤ b ∧ b ≤ 126)
    (htag : ∀ cs, Xml.tag (latin1 start ++ cs) = some (latin1 nm, atts, false, cs))
    (h : Fills inner nodes) :
    Holds (60 :: start ++ inner ++ [60, 47] ++ nm ++ [62]) [.elem (latin1 nm) atts nodes] := by
  obtain ⟨cs, hcs, hnodes⟩ := h
  refine ⟨'<' :: latin1 start ++ cs ++ ['<', '/'] ++ latin1 nm ++ ['>'], ?_,
    .elem hnm.isName htag hnodes⟩
  have hopen : Encodes (60 :: start) ('<' :: latin1 start) :=
    .ascii (List.forall_mem_cons.mpr ⟨.inr (by decide), hstart⟩)
  have hclose : Encodes [60, 47] ['<', '/'] := .ascii (by decide)
  exact (((hopen.append hcs).append hclose).append (.ascii hnm.ascii)).append (.ascii (by decide))

/-- An element on a line of its own. -/
theorem Fills.line {pad nm value : List UInt8} {nodes : List Node} (hpad : IsBlank pad)
    (hnm : IsTagName nm) (h : Fills value nodes) :
    Holds (xmlLine pad nm value)
      ((latin1 pad).map .char ++ [.elem (latin1 nm) [] nodes, .char '\n']) := by
  have htag : ∀ cs, Xml.tag (latin1 (nm ++ [62]) ++ cs) = some (latin1 nm, [], false, cs) := by
    intro cs
    rw [latin1_append, List.append_assoc]
    exact Xml.tag_append hnm.isName cs
  have hstart : ∀ b ∈ nm ++ [62], b = 10 ∨ 32 ≤ b ∧ b ≤ 126 := by
    intro b hb
    rcases List.mem_append.mp hb with hb | hb
    · exact hnm.ascii b hb
    · rw [List.mem_singleton.mp hb]
      decide
  have hline := ((holds_blank hpad).append (h.elem hnm hstart htag)).append 
    (holds_blank (by decide : IsBlank [10]))
  have hbytes : xmlLine pad nm value =
      pad ++ (60 :: (nm ++ [62]) ++ value ++ [60, 47] ++ nm ++ [62]) ++ [10] := by
    simp [xmlLine]
  rw [hbytes]
  simpa using hline


/-! ## text that gives results back -/

/-- The name of the element of a result. -/
def testName : List Char := "test".toList

/-- The bytes hold elements that give the results back, in this order, and no others of
their name. -/
def Carries (bytes : List UInt8) (results : List TestResult) : Prop :=
  ∃ nodes, Holds bytes nodes ∧ List.Forall₂ Reports results (Xml.namedIn testName nodes)

theorem namedIn_chars (cs : List Char) : Xml.namedIn testName (cs.map .char) = [] :=
  (Xml.of_textOf (Xml.textOf_chars cs)).1 testName

theorem namedIn_elem {nm : List Char} (h : nm ≠ testName) (atts : List (List Char × List Char))
    (children : List Node) :
    Xml.namedIn testName [.elem nm atts children] = Xml.namedIn testName children := by
  rw [Xml.namedIn, Xml.namedIn, Node.named, if_neg h, List.nil_append, List.append_nil]

namespace Carries

variable {as bs bytes : List UInt8} {rs ss results : List TestResult}

theorem append (ha : Carries as rs) (hb : Carries bs ss) : Carries (as ++ bs) (rs ++ ss) := by
  obtain ⟨ns, hns, hrs⟩ := ha
  obtain ⟨ms, hms, hss⟩ := hb
  refine ⟨ns ++ ms, hns.append hms, ?_⟩
  rw [Xml.namedIn_append]
  exact List.rel_append hrs hss

theorem blank (h : IsBlank bytes) : Carries bytes [] := by
  refine ⟨_, holds_blank h, ?_⟩
  rw [namedIn_chars]
  exact .nil

/-- Text in an element of another name. -/
theorem line {pad nm value : List UInt8} {cs : List Char} (hpad : IsBlank pad) (hnm : IsTagName nm)
    (hne : latin1 nm ≠ testName) (h : Fills value (cs.map .char)) :
    Carries (xmlLine pad nm value) [] := by
  refine ⟨_, h.line hpad hnm, ?_⟩
  have hnamed : Xml.namedIn testName [.elem (latin1 nm) [] (cs.map .char), .char '\n'] = [] := by
    rw [Xml.namedIn, Node.named, if_neg hne, namedIn_chars]
    rfl
  rw [Xml.namedIn_append, namedIn_chars, hnamed]
  exact .nil

/-- Elements in an element of another name. -/
theorem elem {start nm : List UInt8} {atts} (hnm : IsTagName nm) (hne : latin1 nm ≠ testName)
    (hstart : ∀ b ∈ start, b = 10 ∨ 32 ≤ b ∧ b ≤ 126)
    (htag : ∀ cs, Xml.tag (latin1 start ++ cs) = some (latin1 nm, atts, false, cs))
    (h : Carries bytes results) : Carries (60 :: start ++ bytes ++ [60, 47] ++ nm ++
      [62]) results := by
  obtain ⟨nodes, hnodes, hresults⟩ := h
  refine ⟨_, hnodes.fills.elem hnm hstart htag, ?_⟩
  rwa [namedIn_elem hne]

theorem flatMap {α : Type} {xs : List α} {f : α → List UInt8} {g : α → List TestResult}
    (h : ∀ a ∈ xs, Carries (f a) (g a)) : Carries (xs.flatMap f) (xs.flatMap g) := by
  induction xs with
  | nil => exact ⟨[], .nil, .nil⟩
  | cons a xs ih =>
      obtain ⟨ha, hxs⟩ := List.forall_mem_cons.mp h
      exact ha.append (ih hxs)

end Carries

/-- The content of lines. -/
def lineNodes (pad : List UInt8) (fs : List (List Char × List Char)) : List Node :=
  fs.flatMap fun f => (latin1 pad).map .char ++ [.elem f.1 [] (f.2.map .char), .char '\n']

theorem fields_chars_append (cs : List Char) (nodes : List Node) :
    Xml.fields (cs.map .char ++ nodes) = Xml.fields nodes := by
  induction cs with
  | nil => rfl
  | cons c cs ih => exact ih

theorem fields_lineNodes (pad : List UInt8) (fs : List (List Char × List Char)) (cs : List Char) :
    Xml.fields (lineNodes pad fs ++ cs.map .char) = some fs := by
  induction fs with
  | nil => exact (Xml.of_textOf (Xml.textOf_chars cs)).2
  | cons f fs ih =>
      rw [lineNodes] at ih ⊢
      simp only [List.flatMap_cons, List.append_assoc, fields_chars_append, List.cons_append,
        List.nil_append, Xml.fields, Xml.textOf_chars, ih]
      rfl

theorem namedIn_lineNodes {pad : List UInt8} {fs : List (List Char × List Char)}
    (h : ∀ f ∈ fs, f.1 ≠ testName) : Xml.namedIn testName (lineNodes pad fs) = [] := by
  induction fs with
  | nil => rfl
  | cons f fs ih =>
      obtain ⟨hf, hfs⟩ := List.forall_mem_cons.mp h
      have hone : Xml.namedIn testName [.elem f.1 [] (f.2.map .char), .char '\n'] = [] := by
        rw [Xml.namedIn, Node.named, if_neg hf, namedIn_chars]
        rfl
      rw [lineNodes, List.flatMap_cons, Xml.namedIn_append, Xml.namedIn_append, namedIn_chars, hone]
      exact ih hfs

/-- A line and what is read from it. -/
def LineReads (l : List UInt8 × List UInt8) (f : List Char × List Char) : Prop :=
  IsTagName l.1 ∧ f.1 = latin1 l.1 ∧ Fills l.2 (f.2.map .char)

theorem holds_lines {pad : List UInt8} (hpad : IsBlank pad) {lines : List (List UInt8 × List UInt8)}
    {fs : List (List Char × List Char)} (h : List.Forall₂ LineReads lines fs) :
    Holds (lines.flatMap fun l => xmlLine pad l.1 l.2) (lineNodes pad fs) := by
  induction h with
  | nil => exact .nil
  | cons hl _ ih =>
      obtain ⟨hnm, hname, hfills⟩ := hl
      rw [lineNodes, List.flatMap_cons, List.flatMap_cons, hname]
      exact (hfills.line hpad hnm).append ih

/-- The names of the elements of a log. -/
def elementNames : List String :=
  ["testsuites", "datetime", "duration", "suite", "title", "test", "path", "fn", "id", "iteration",
    "description", "message"]

theorem latin1_text (nm : String) (h : nm ∈ elementNames) : latin1 (text nm) = nm.toList := by
  have hall : ∀ nm ∈ elementNames, latin1 (text nm) = nm.toList := by decide +kernel
  exact hall nm h

theorem isTagName_text (nm : String) (h : nm ∈ elementNames) : IsTagName (text nm) := by
  have hall : ∀ nm ∈ elementNames, (∀ b ∈ text nm, b = 10 ∨ 32 ≤ b ∧ b ≤ 126) ∧ text nm ≠ [] ∧
      (latin1 (text nm)).head?.all Xml.isNameStart ∧
        ∀ c ∈ latin1 (text nm), Xml.isNameChar c := by
    decide +kernel
  obtain ⟨hascii, hne, hstart, hchars⟩ := hall nm h
  refine ⟨hascii, ?_⟩
  cases hnm : text nm with
  | nil => exact absurd hnm hne
  | cons b bytes =>
      rw [hnm] at hstart hchars
      exact ⟨_, _, rfl, hstart, fun d hd => hchars d (List.mem_cons_of_mem _ hd)⟩

theorem lineReads_text {nm : String} {value : List UInt8} {cs : List Char} (h : nm ∈ elementNames)
    (hvalue : Fills value (cs.map .char)) : LineReads (text nm, value) (nm.toList, cs) :=
  ⟨isTagName_text nm h, (latin1_text nm h).symm, hvalue⟩


theorem fills_numbered {raw n : List UInt8} (hraw : IsPlainText raw)
    (hn : ∀ b ∈ n, IsNumberByte b) :
    ∃ cs, encodeUtf8 cs = raw ∧
      Fills (raw ++ (text ":" ++ n)) ((cs ++ latin1 (text ":" ++ n)).map .char) := by
  obtain ⟨cs, henc, hdata, hchars⟩ := hraw
  have htail : ∀ b ∈ text ":" ++ n, IsNumberByte b := by
    intro b hb
    rcases List.mem_append.mp hb with hb | hb
    · rw [List.mem_singleton.mp hb]
      exact .inr (by decide)
    · exact hn b hb
  have hcolon : IsData (latin1 (text ":" ++ n)) := isData_of_frame _ fun b hb hm => by
    have hall : ∀ b ∈ [(60 : UInt8), 38, 62], ¬IsNumberByte b := by unfold IsNumberByte; decide
    exact hall b hm (htail b hb)
  refine ⟨cs, henc, _, Encodes.append ⟨henc, hchars⟩ (.ascii fun b hb => (htail b hb).frame.1),
    .data ?_⟩
  exact isData_append hdata hcolon (by decide) (by decide)

theorem lineReads_testRest (cfg : Config) (tr : TestResult) (tcname msg : CStr) :
    ∃ fs, List.Forall₂ LineReads (testRest cfg tr tcname msg) fs ∧ ∀ f ∈ fs, f.1 ≠ testName := by
  have hdot : ∀ b ∈ text ".", IsNumberByte b := by unfold IsNumberByte; decide
  refine ⟨[("iteration".toList, _), ("duration".toList, _), ("description".toList, _),
      ("message".toList, _)],
    .cons (lineReads_text (by decide) (holds_number fun b hb => fmtInt_number hb).fills)
      (.cons (lineReads_text (by decide) (holds_number fun b hb => ?_).fills)
        (.cons (lineReads_text (by decide) (fills_xmlEsc cfg tcname))
          (.cons (lineReads_text (by decide) (fills_xmlEsc cfg msg)) .nil))), ?_⟩
  · simp only [List.mem_append] at hb
    rcases hb with (hb | hb) | hb
    · exact fmtInt_number hb
    · exact hdot b hb
    · exact fmtMicros_number hb
  · simp only [List.forall_mem_cons]
    have hall : ∀ nm ∈ ["iteration", "duration", "description", "message"],
        nm.toList ≠ testName := by
      decide
    exact ⟨hall _ (by simp), hall _ (by simp), hall _ (by simp), hall _ (by simp), by simp⟩

/-- The tag of a result. -/
theorem tag_test {tr : TestResult} (h : tr.Classified) :
    (∀ b ∈ text "test result=\"" ++ resultName tr ++ [34, 62], b = 10 ∨ 32 ≤ b ∧ b ≤ 126) ∧
      ∃ atts, ∀ cs, Xml.tag (latin1 (text "test result=\"" ++ resultName tr ++ [34, 62]) ++ cs) =
        some (latin1 (text "test"), atts, false, cs) := by
  unfold resultName
  rcases h.1 with he | he | he
  · rw [he]
    exact ⟨by decide, [("result".toList, "success".toList)], fun cs => rfl⟩
  · rw [he]
    exact ⟨by decide, [("result".toList, "failure".toList)], fun cs => rfl⟩
  · rw [he]
    exact ⟨by decide, [("result".toList, "error".toList)], fun cs => rfl⟩

/-- A result whose source path and test name are plain text is given back. -/
theorem carries_result {cfg : Config} {tr : TestResult} (hprinted : Printed tr)
    (hplain : PlainSource tr) : Carries (resultText cfg tr) [tr] := by
  obtain ⟨tcname, htcname⟩ := Option.ne_none_iff_exists'.mp hprinted.tcname
  obtain ⟨tname, htname⟩ := Option.ne_none_iff_exists'.mp hprinted.tname
  obtain ⟨msg, hmsg⟩ := Option.ne_none_iff_exists'.mp hprinted.classified.2
  have hraw := (plainSource_iff hprinted.tname).mpr hplain
  simp only [rawFields, List.forall_mem_cons] at hraw
  obtain ⟨path, hpath, hpathFills⟩ := fills_plain hraw.1
  obtain ⟨fn, hfn, hfnFills⟩ := fills_numbered hraw.2.1 fun b hb =>
      fmtInt_number (i := tr.line.toInt) hb
  obtain ⟨id, hid, hidFills⟩ := fills_plain hraw.2.2.1
  obtain ⟨rest, hrest, hrestNames⟩ := lineReads_testRest cfg tr tcname msg
  let fs := ("path".toList, path) ::
    ("fn".toList, fn ++ latin1 (text ":" ++ fmtInt tr.line.toInt)) :: ("id".toList, id) :: rest
  have hlines : List.Forall₂ LineReads (testLines cfg tr tcname msg) fs :=
    .cons (lineReads_text (by decide) hpathFills)
      (.cons (lineReads_text (by decide) hfnFills)
        (.cons (lineReads_text (by decide) hidFills) hrest))
  have hnames : ∀ f ∈ fs, f.1 ≠ testName := by
    have hall : ∀ nm ∈ ["path", "fn", "id"], nm.toList ≠ testName := by decide
    simp only [fs, List.forall_mem_cons]
    exact ⟨hall _ (by simp), hall _ (by simp), hall _ (by simp), hrestNames⟩
  obtain ⟨hascii, atts, htag⟩ := tag_test hprinted.classified
  have hpad : IsBlank (text "      ") ∧ IsBlank (text "    ") ∧ IsBlank [10] := by decide
  have hinner := ((holds_blank hpad.2.2).append (holds_lines hpad.1 hlines)).append
      (holds_blank hpad.2.1)
  have htest := ((holds_blank hpad.2.1).append
    (hinner.fills.elem (isTagName_text "test" (by decide)) hascii htag)).append
    (holds_blank hpad.2.2)
  have hbytes : resultText cfg tr = text "    " ++
      (60 :: (text "test result=\"" ++ resultName tr ++ [34, 62]) ++
        ([10] ++ ((testLines cfg tr tcname msg).flatMap fun l => xmlLine (text "      ") l.1 l.2) ++
          text "    ") ++ [60, 47] ++ text "test" ++ [62]) ++ [10] := by
    have hopen : text "    <test result=\"" = text "    " ++
        60 :: text "test result=\"" := by decide
    have hend : text "\">\n" = [34, 62, 10] := by decide
    have hclose : text "    </test>\n" = text "    " ++ 60 :: 47 ::
        (text "test" ++ [62, 10]) := by decide
    have hresult : xmlResult tr.rtype = some (resultName tr) := by
      unfold resultName
      rcases hprinted.classified.1 with he | he | he <;> rw [he] <;> rfl
    rw [resultText, trXmlprint_eq hresult htcname hmsg, Option.getD_some, hopen, hend, hclose]
    simp
  rw [← hbytes] at htest
  have hfields := fields_lineNodes (text "      ") fs (latin1 (text "    "))
  have hline : ∀ b ∈ text ":" ++ fmtInt tr.line.toInt, b < 128 := by
    intro b hb
    rcases List.mem_append.mp hb with hb | hb
    · rw [List.mem_singleton.mp hb]
      decide
    · exact (fmtInt_number hb).frame.ascii.1
  have hreports : ∀ nm, Reports tr (.elem nm atts (List.map Node.char (latin1 [10]) ++
      lineNodes (text "      ") fs ++ List.map Node.char (latin1 (text "    ")))) := by
    refine fun nm => ⟨path, fn ++ latin1 (text ":" ++ fmtInt tr.line.toInt), id, rest, ?_,
      (xmlPathName tr.file).2, tname, rejoins_iff.mpr (by rw [hpath]), ?_, htname, ?_⟩
    · rw [Node.children, List.append_assoc, fields_chars_append]
      exact hfields
    · rw [Xml.encodeUtf8_append, hfn, encodeUtf8_latin1 hline]
    · rw [hid, htname]
      rfl
  refine ⟨_, htest, ?_⟩
  rw [latin1_text "test" (by decide)]
  simp only [Xml.namedIn_append, namedIn_chars, namedIn_lineNodes hnames, List.nil_append,
    List.append_nil, Xml.namedIn, Node.named, if_pos (show "test".toList = testName from rfl)]
  exact .cons (hreports _) .nil

theorem carries_suite {cfg : Config} {s : CStr × List TestResult}
    (hprinted : ∀ tr ∈ s.2, Printed tr)
    (hplain : ∀ tr ∈ s.2, PlainSource tr) : Carries (suiteText cfg s) s.2 := by
  have hresults : Carries (s.2.flatMap (resultText cfg)) (s.2.flatMap fun tr => [tr]) :=
    .flatMap fun tr htr => carries_result (hprinted tr htr) (hplain tr htr)
  have htitle : Carries (xmlLine (text "    ") (text "title") (fprintXmlEsc cfg s.1)) [] :=
    .line (by decide) (isTagName_text _ (by decide)) (by decide) (fills_xmlEsc cfg s.1)
  have hinner := (Carries.blank (by decide : IsBlank [10])).append
    (htitle.append (hresults.append (.blank (by decide : IsBlank (text "  ")))))
  have htag : ∀ cs, Xml.tag (latin1 (text "suite>") ++ cs) = some (latin1 (text "suite"), [],
      false, cs) :=
    fun cs => rfl
  have hsuite := (Carries.blank (by decide : IsBlank (text "  "))).append
    ((hinner.elem (isTagName_text "suite" (by decide)) (by decide) (by decide) htag).append
      (.blank (by decide : IsBlank [10])))
  have hopen : text "  <suite>\n" = text "  " ++ 60 :: (text "suite>" ++ [10]) := by decide
  have hclose : text "  </suite>\n" = text "  " ++ 60 :: 47 ::
      (text "suite" ++ [62, 10]) := by decide
  rw [suiteText, hopen, hclose]
  simpa using hsuite


/-! ## the document -/

/-- What stands before the root element is read. -/
theorem misc_prolog (n : Nat) {c : Char} (hc : Xml.isNameStart c) (cs : List Char) :
    Xml.misc (n + 4) ('\n' :: '<' :: '?' :: ("xml-stylesheet".toList ++ ' ' :: (latin1 stylesheet ++
      '?' :: '>' :: '\n' :: '<' :: c :: cs))) = some ('<' :: c :: cs) := by
  have htarget : Xml.IsName "xml-stylesheet".toList :=
    ⟨'x', "ml-stylesheet".toList, rfl, by decide, by decide⟩
  have hquery : '?' ∉ latin1 stylesheet := by decide +kernel
  rw [Xml.misc_blank _ (by decide), Xml.misc_procInst _ htarget (by decide) hquery,
    Xml.misc_blank _ (by decide), Xml.misc_start _ hc]

/-- The attributes of the root element. -/
def rootAtts : List (List Char × List Char) :=
  [("xmlns".toList, "http://check.sourceforge.net/ns".toList)]

/-- Content in the root element is read as a document. -/
theorem readBytes_document {inner : List UInt8} {nodes : List Node} (h : Holds inner nodes) :
    Xml.readBytes (xmlProlog ++ (60 :: (rootTag ++ [62]) ++ (inner ++ text "</testsuites>\n"))) =
      some (.elem "testsuites".toList rootAtts nodes) := by
  obtain ⟨cs, hcs, hsolid⟩ := h
  have hprolog : Encodes xmlProlog (latin1 xmlProlog) := .ascii (by decide +kernel)
  have hopen : Encodes (60 :: (rootTag ++ [62])) (latin1 (60 :: (rootTag ++ [62]))) :=
    .ascii (by decide +kernel)
  have hclose : Encodes (text "</testsuites>\n") (latin1 (text "</testsuites>\n")) :=
    .ascii (by decide)
  have hall := hprolog.append (hopen.append (hcs.append hclose))
  -- the characters of the frame
  have hprologChars : latin1 xmlProlog = "<?xml version=\"1.0\"?>".toList ++ '\n' :: '<' :: '?' ::
      ("xml-stylesheet".toList ++ ' ' :: (latin1 stylesheet ++ ['?', '>', '\n'])) := by
    decide +kernel
  have hopenChars : latin1 (60 :: (rootTag ++ [62])) =
      '<' :: 't' :: "estsuites xmlns=\"http://check.sourceforge.net/ns\">".toList := by
    decide +kernel
  have hcloseChars : latin1 (text "</testsuites>\n") =
      '<' :: '/' :: ("testsuites".toList ++ '>' :: ['\n']) := by decide
  have htag : ∀ cs, Xml.tag ('t' :: "estsuites xmlns=\"http://check.sourceforge.net/ns\">".toList ++
      cs) =
      some ("testsuites".toList, rootAtts, false, cs) := fun cs => rfl
  have hname : Xml.IsName "testsuites".toList := latin1_text "testsuites" (by decide) ▸
    (isTagName_text _ (by decide)).isName
  generalize hbody : 't' :: "estsuites xmlns=\"http://check.sourceforge.net/ns\">".toList ++
    (cs ++ ('<' :: '/' :: ("testsuites".toList ++ '>' :: ['\n']))) = body
  have hroot := Xml.element_append hname htag hsolid.yields ['\n']
  rw [hbody] at hroot
  have hchars : latin1 xmlProlog ++ (latin1 (60 :: (rootTag ++ [62])) ++
      (cs ++ latin1 (text "</testsuites>\n"))) = "<?xml version=\"1.0\"?>".toList ++
        ('\n' :: '<' :: '?' :: ("xml-stylesheet".toList ++ ' ' :: (latin1 stylesheet ++
          '?' :: '>' :: '\n' :: '<' :: body))) := by
    rw [hprologChars, hopenChars, hcloseChars, ← hbody]
    simp only [List.append_assoc, List.cons_append, List.nil_append]
  rw [hchars] at hall
  have hdec := congrArg Xml.decodeUtf8 hall.encode
  rw [Xml.decodeUtf8_encodeUtf8] at hdec
  have hmisc : ∀ n, Xml.misc (n + 4) ('\n' :: '<' :: '?' :: ("xml-stylesheet".toList ++ ' ' ::
      (latin1 stylesheet ++ '?' :: '>' :: '\n' :: '<' :: body))) = some ('<' :: body) := by
    intro n
    rw [← hbody]
    exact misc_prolog n (by decide) _
  refine Xml.readBytes_eq hdec.symm (fun hm => (hall.chars _ hm).2 rfl)
    (fun c hc => (hall.chars c hc).1)
    (Xml.xmlDecl_version _) ?_ hroot rfl
  rw [List.length_cons, List.length_cons, List.length_cons]
  exact hmisc _

/-- A log whose source paths and test names are plain text is read, and gives the results
back. -/
theorem reports_of_plain {x : Ctx} {clock : XmlClock} {suites : List (CStr × List TestResult)}
    (hdate : IsDate clock.datetime) (hprinted : ∀ s ∈ suites, ∀ tr ∈ s.2, Printed tr)
    (hplain : ∀ s ∈ suites, ∀ tr ∈ s.2, PlainSource tr) :
    ∃ root, Xml.readBytes (logText x clock suites) = some root ∧
      List.Forall₂ Reports (suites.flatMap Prod.snd) (root.named testName) := by
  have hdot : ∀ b ∈ text ".", IsNumberByte b := by unfold IsNumberByte; decide
  have hsuites : Carries (suites.flatMap (suiteText x.cfg)) (suites.flatMap Prod.snd) :=
    .flatMap fun s hs => carries_suite (hprinted s hs) (hplain s hs)
  have hstart : Carries (xmlLine (text "  ") (text "datetime") clock.datetime.bytes) [] :=
    .line (by decide) (isTagName_text _ (by decide)) (by decide) (holds_number hdate).fills
  have hstop : Carries (xmlLine (text "  ") (text "duration")
      (fmtInt (clock.elapsed / 1000000) ++ text "." ++
        fmtMicros (clock.elapsed % 1000000))) [] := by
    refine .line (by decide) (isTagName_text _ (by decide)) (by decide)
      (holds_number fun b hb => ?_).fills
    simp only [List.mem_append] at hb
    rcases hb with (hb | hb) | hb
    · exact fmtInt_number hb
    · exact hdot b hb
    · exact fmtMicros_number hb
  obtain ⟨nodes, hnodes, hreports⟩ := (Carries.blank (by decide : IsBlank [10])).append
    (hstart.append (hsuites.append hstop))
  refine ⟨.elem "testsuites".toList rootAtts nodes, ?_, ?_⟩
  · have hread := readBytes_document hnodes
    have hbytes : logText x clock suites = xmlProlog ++ (60 :: (rootTag ++ [62]) ++ ([10] ++
        (xmlLine (text "  ") (text "datetime") clock.datetime.bytes ++
          (suites.flatMap (suiteText x.cfg) ++ xmlLine (text "  ") (text "duration")
            (fmtInt (clock.elapsed / 1000000) ++ text "." ++ fmtMicros
              (clock.elapsed % 1000000)))) ++
        text "</testsuites>\n")) := by
      simp [logText]
    rw [hbytes]
    exact hread
  · rw [Node.named, if_neg (by decide), List.nil_append]
    simpa using hreports

/-- **The XML log is well-formed and gives every result back, in order, if and only if the
source paths and the names of the tests are plain text: valid UTF-8, with characters that
a document may hold and the reader leaves as they are, without `<`, `&` and `]]>`.  The
names of suites and test cases and the messages may be anything.** -/
theorem xml_read_back_iff {x : Ctx} {clock : XmlClock} {calls : List LogCall}
    {suites : List (CStr × List TestResult)} (hcalls : XmlCalls calls suites)
    (hdate : IsDate clock.datetime) (hprinted : ∀ s ∈ suites, ∀ tr ∈ s.2, Printed tr) :
    (∃ root, Xml.readBytes (xmlText x clock calls) = some root ∧
      List.Forall₂ Reports (suites.flatMap Prod.snd) (root.named testName)) ↔
      ∀ s ∈ suites, ∀ tr ∈ s.2, PlainSource tr := by
  rw [xmlText_eq hcalls]
  constructor
  · intro ⟨root, hread, hreports⟩ s hs tr htr
    have hparts := plain_of_reports hdate hprinted hread hreports
    refine (plainSource_iff (hprinted s hs tr htr).tname).mp fun part hpart => hparts part ?_
    exact List.mem_flatMap.mpr ⟨tr, List.mem_flatMap.mpr ⟨s, hs, htr⟩, hpart⟩
  · exact reports_of_plain hdate hprinted

namespace Sample

/-- A failure of the test `t` in a source file. -/
def xmlResult (file : String) : TestResult :=
  { tapResult .failure "1 < 2" with file := some (.lit file) }

/-- The calls for a run of one suite with that test. -/
def xmlCalls (file : String) : List LogCall := tapCalls (xmlResult file)

theorem xmlCalls_xmlCalls (file : String) :
    XmlCalls (xmlCalls file) [(.lit "s", [xmlResult file])] :=
  .mk (tapCall .initlogSr .null 0) (tapCall .endlogSr .null 1) rfl
    (.silent (tapCall .startSr .null 0) (by simp [XmlSilent, tapCall]) <|
      .suite (tapCall .startS (.suite 0 (.lit "s")) 0) (tapCall .endS (.suite 0 (.lit "s")) 1) 0
        (.lit "s") rfl rfl
        (.silent (tapCall .startT (.testName (.lit "tc:t")) 0) (by simp [XmlSilent, tapCall]) <|
          .result (tapCall .endT (.result (xmlResult file)) 1) (xmlResult file) rfl rfl .nil) rfl <|
      .silent (tapCall .endSr .null 1) (by simp [XmlSilent, tapCall]) .nil)
    rfl

/-- The first second of a run in 2024. -/
def xmlClock : XmlClock := ⟨.lit "2024-01-01 00:00:00", 1000000⟩

theorem isDate_xmlClock : IsDate xmlClock.datetime := by
  unfold IsDate IsNumberByte
  decide

theorem printed_xmlResult (file : String) :
    ∀ s ∈ [(CStr.lit "s", [xmlResult file])], ∀ tr ∈ s.2, Printed tr := by
  intro s hs tr htr
  rw [List.mem_singleton.mp hs] at htr
  rw [List.mem_singleton.mp htr]
  exact ⟨⟨.inr (.inl rfl), Option.some_ne_none _⟩, Option.some_ne_none _, Option.some_ne_none _⟩

theorem isPlainText_noBracket (cs : List Char) (hdata : '<' ∉ cs ∧ '&' ∉ cs ∧ ']' ∉ cs)
    (hchars : ∀ c ∈ cs, Xml.isChar c ∧ c ≠ '\r') : IsPlainText (encodeUtf8 cs) :=
  ⟨cs, rfl, ⟨hdata.1, hdata.2.1, fun h => hdata.2.2 (h.subset List.mem_cons_self)⟩, hchars⟩

theorem plainSource_xmlResult : PlainSource (xmlResult "src/t.c") where
  file := by
    rintro _ ⟨⟩
    exact isPlainText_noBracket "src/t.c".toList (by decide) (by decide +kernel)
  tname := by
    rintro _ ⟨⟩
    exact isPlainText_noBracket "t".toList (by decide) (by decide +kernel)

end Sample

/-- A source path without special characters. -/
theorem xml_read_back_iff_plain :
    ∃ root, Xml.readBytes (xmlText Sample.ctx Sample.xmlClock
      (Sample.xmlCalls "src/t.c")) = some root ∧
      List.Forall₂ Reports ([(CStr.lit "s", [Sample.xmlResult "src/t.c"])].flatMap Prod.snd)
        (root.named testName) := by
  refine (xml_read_back_iff (Sample.xmlCalls_xmlCalls "src/t.c") Sample.isDate_xmlClock
    (Sample.printed_xmlResult "src/t.c")).mpr fun s hs tr htr => ?_
  rw [List.mem_singleton.mp hs] at htr
  rw [List.mem_singleton.mp htr]
  exact Sample.plainSource_xmlResult

/-- A test in a directory named `R&D`: the log is no document. -/
theorem xml_malformed_path :
    XmlCalls (Sample.xmlCalls "R&D/t.c") [(.lit "s", [Sample.xmlResult "R&D/t.c"])] ∧
      IsDate Sample.xmlClock.datetime ∧ Printed (Sample.xmlResult "R&D/t.c") ∧
      Xml.readBytes (xmlText Sample.ctx Sample.xmlClock (Sample.xmlCalls "R&D/t.c")) = none := by
  have hcalls := Sample.xmlCalls_xmlCalls "R&D/t.c"
  refine ⟨hcalls, Sample.isDate_xmlClock,
    Sample.printed_xmlResult "R&D/t.c" _ (List.mem_singleton_self _) _
      (List.mem_singleton_self _), ?_⟩
  have hread : ∀ bytes, bytes = logText Sample.ctx Sample.xmlClock
      [(.lit "s", [Sample.xmlResult "R&D/t.c"])] →
        (∀ b ∈ bytes, b < 128) ∧ (Xml.document (latin1 bytes)).isNone = true := by
    rintro _ rfl
    decide +kernel
  obtain ⟨hascii, hnone⟩ := hread _ (xmlText_eq hcalls)
  have hdec := congrArg Xml.decodeUtf8 (encodeUtf8_latin1 hascii)
  rw [Xml.decodeUtf8_encodeUtf8] at hdec
  rw [Xml.readBytes, ← hdec, Option.bind_some, Option.isNone_iff_eq_none.mp hnone]

end LibCheck
