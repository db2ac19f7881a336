import LibCheck.XmlReading
import Mathlib.Data.List.Forall2

/-!
# LibCheck.XmlFrame

A text in which some parts are written as they come, in a frame of markup: if a
reader of XML gets the parts back, they are plain text.

* `Piece` — the markup of the frame, the text in it, and a part in its element.
* `Visits.frame` — leaves with the names of the parts, and texts that are no shorter,
  are the parts.
-/

namespace LibCheck.Xml

/-! ## pieces -/

/-- A piece of a text: a tag, text without tags, or an element with a value that may be
anything. -/
inductive Piece where
  | markup (body : List Char)
  | data (cs : List Char)
  | field (nm value : List Char)

namespace Piece

/-- The characters of a piece. -/
def chars : Piece → List Char
  | markup body => '<' :: (body ++ ['>'])
  | data cs => cs
  | field nm value => '<' :: (nm ++ '>' :: (value ++ '<' :: '/' :: (nm ++ ['>'])))

/-- The part that a piece holds. -/
def part : Piece → Option (List Char × List Char)
  | field nm value => some (nm, value)
  | _ => none

end Piece

/-- The name of the tag that begins with `<` and `cs`. -/
def tagName (cs : List Char) : List Char := (cs.dropWhile (· = '/')).takeWhile isNameChar

/-- A piece can hold a `<` only as the first character of a tag that has none of the
names, or in a part. -/
def Piece.Framed (nms : List (List Char)) : Piece → Prop
  | markup body => '<' ∉ body ∧ tagName body ∉ nms
  | data cs => '<' ∉ cs
  | field nm _ => nm ∈ nms ∧ IsName nm

/-- The text of some pieces. -/
def frameText (ps : List Piece) : List Char := ps.flatMap Piece.chars

/-- The parts in some pieces. -/
def partsOf (ps : List Piece) : List (List Char × List Char) := ps.filterMap Piece.part

/-- The text from the first part on. -/
def fromPart : List Piece → List Char
  | [] => []
  | .field nm value :: ps => frameText (.field nm value :: ps)
  | _ :: ps => fromPart ps

/-! ## suffixes -/

/-- A text that begins with a character is not the end of one without it. -/
theorem suffix_of_notMem {α : Type} {c : α} {cs tail : List α} (as : List α)
    (h : c :: cs <:+ as ++ tail)
    (has : c ∉ as) : c :: cs <:+ tail := by
  induction as with
  | nil => exact h
  | cons a as ih =>
      rw [List.cons_append] at h
      rcases List.suffix_cons_iff.mp h with he | h
      · exact absurd (List.cons.inj he).1 fun he => has (he ▸ List.mem_cons_self)
      · exact ih h fun hm => has (List.mem_cons_of_mem a hm)

theorem tagName_append (body tail : List Char) : tagName (body ++ '>' :: tail) = tagName body := by
  have htake : ∀ cs : List Char, (cs ++ '>' :: tail).takeWhile isNameChar =
      cs.takeWhile isNameChar := by
    intro cs
    induction cs with
    | nil => rfl
    | cons c cs ih => simp only [List.cons_append, List.takeWhile_cons, ih]
  induction body with
  | nil => rfl
  | cons c body ih =>
      by_cases hc : c = '/'
      · simp only [tagName, List.cons_append, List.dropWhile_cons, hc] at ih ⊢
        exact ih
      · simp only [tagName, List.cons_append, List.dropWhile_cons, hc, decide_false,
          Bool.false_eq_true, if_false]
        exact htake (c :: body)

theorem IsName.notMem {nm : List Char} (h : IsName nm) {c : Char}
    (hc : ¬isNameChar c) : c ∉ nm := by
  obtain ⟨d, ds, rfl, hd, hds⟩ := h
  intro hm
  rcases List.mem_cons.mp hm with rfl | hm
  · exact hc (by simp [isNameChar, hd])
  · exact hc (hds c hm)

/-- The name at the front of a tag. -/
theorem tagName_name {nm more : List Char} (hnm : IsName nm)
    (hmore : ∀ c ∈ more.head?, ¬isNameChar c) :
    tagName (nm ++ more) = nm ∧ tagName ('/' :: (nm ++ more)) = nm := by
  have htake : (nm ++ more).takeWhile isNameChar = nm := by
    have hread := name_append hnm hmore
    obtain ⟨c, ds, rfl, hc, hds⟩ := hnm
    have hc' : isNameChar c := by simp [isNameChar, hc]
    rw [List.cons_append, name, if_pos hc] at hread
    rw [List.cons_append, List.takeWhile_cons_of_pos hc']
    exact congrArg Prod.fst (Option.some.inj hread)
  have hdrop : (nm ++ more).dropWhile (· = '/') = nm ++ more := by
    obtain ⟨c, ds, rfl, hc, -⟩ := hnm
    have hne : c ≠ '/' := fun he => absurd (he ▸ hc) (by decide)
    rw [List.cons_append, List.dropWhile_cons_of_neg (by simpa using hne)]
  constructor
  · rw [tagName, hdrop, htake]
  · rw [tagName, List.dropWhile_cons_of_pos (by simp), hdrop, htake]

/-- A tag with one of the names does not stand in a piece of the frame. -/
theorem suffix_of_framed {nms : List (List Char)} {p : Piece} (hp : p.Framed nms)
    (hpart : p.part = none)
    {cs tail : List Char} (h : '<' :: cs <:+ p.chars ++ tail) (hcs : tagName cs ∈ nms) :
    '<' :: cs <:+ tail := by
  cases p with
  | field nm value => cases hpart
  | data ds => exact suffix_of_notMem ds h hp
  | markup body =>
      rw [Piece.chars, List.cons_append, List.append_assoc] at h
      rcases List.suffix_cons_iff.mp h with he | h
      · have hbody : cs = body ++ '>' :: tail := (List.cons.inj he).2
        rw [hbody, tagName_append] at hcs
        exact absurd hcs hp.2
      · exact suffix_of_notMem (body ++ ['>']) (by simpa using h) (by simp [hp.1])

theorem fromPart_cons {p : Piece} (hpart : p.part = none) (ps : List Piece) :
    fromPart (p :: ps) = fromPart ps := by
  cases p with
  | field nm value => cases hpart
  | data ds => rfl
  | markup body => rfl

/-- A tag with one of the names stands in the frame at the first part or behind it. -/
theorem suffix_fromPart {nms : List (List Char)} {ps : List Piece} (hps : ∀ p ∈ ps, p.Framed nms)
    {cs : List Char} (h : '<' :: cs <:+ frameText ps) (hcs : tagName cs ∈ nms) :
    '<' :: cs <:+ fromPart ps := by
  induction ps with
  | nil => exact h
  | cons p ps ih =>
      have ih := ih fun q hq => hps q (List.mem_cons_of_mem p hq)
      cases hpart : p.part with
      | none =>
          rw [fromPart_cons hpart]
          exact ih (suffix_of_framed (hps p List.mem_cons_self) hpart h hcs)
      | some part =>
          cases p with
          | field nm value => exact h
          | data ds => cases hpart
          | markup body => cases hpart

/-! ## leaves in a frame -/

section

variable {nms : List (List Char)} {ps : List Piece} {nm value txt cs rest : List Char}

theorem Leaf.name (h : Leaf nm txt cs rest) : IsName nm := by
  cases h with
  | empty htag => exact (tag_rest htag).1
  | full htag _ _ => exact (tag_rest htag).1

theorem tagName_of_tag {start : List Char} {atts} {empty : Bool}
    (h : tag start = some (nm, atts, empty, rest)) : tagName start = nm := by
  obtain ⟨hnm, more, rfl, hmore, -⟩ := tag_rest h
  exact (tagName_name hnm hmore).1

theorem Leaf.tagName (h : Leaf nm txt cs rest) : ∃ start, cs = '<' :: start ∧
    Xml.tagName start = nm := by
  cases h with
  | empty htag => exact ⟨_, rfl, tagName_of_tag htag⟩
  | full htag _ _ => exact ⟨_, rfl, tagName_of_tag htag⟩

/-- An element without content does not stand at a part without text, but behind it. -/
theorem suffix_of_empty {start tail : List Char} {atts}
    (htag : tag start = some (nm, atts, true, rest))
    (h : '<' :: start <:+ (Piece.field nm []).chars ++ tail) : '<' :: start <:+ tail := by
  have hnm := (tag_rest htag).1
  have hlt : '<' ∉ nm := hnm.notMem (by decide)
  rw [Piece.chars, List.cons_append, List.append_assoc] at h
  rcases List.suffix_cons_iff.mp h with he | h
  · have hstart := (List.cons.inj he).2
    rw [hstart, List.cons_append, tag_append hnm] at htag
    cases htag
  have h : '<' :: start <:+ '<' :: '/' :: (nm ++ '>' :: tail) :=
    suffix_of_notMem (nm ++ ['>']) (by simpa using h) (by simp [hlt])
  rcases List.suffix_cons_iff.mp h with he | h
  · have hstart := (List.cons.inj he).2
    rw [hstart, tag, Xml.name, if_neg (by decide)] at htag
    cases htag
  · exact suffix_of_notMem ('/' :: (nm ++ ['>'])) (by simpa using h) (by simp [hlt])

/-- The length of an element that holds a text. -/
theorem length_full {start src blank : List Char} {atts}
    (htag : tag start = some (nm, atts, false, src ++ '<' :: '/' ::
      (nm ++ (blank ++ '>' :: rest)))) :
    (Piece.field nm src).chars.length + blank.length + rest.length ≤ ('<' :: start).length := by
  obtain ⟨-, more, rfl, -, -, hlen⟩ := tag_rest htag
  simp only [Piece.chars, List.length_cons, List.length_append, List.length_nil] at hlen ⊢
  omega

/-- A leaf with the name of a part, and a text that is no shorter, ends at the end of the
part or behind it. -/
theorem Leaf.rest_suffix {tail : List Char} (h : Leaf nm txt cs rest)
    (hcs : cs <:+ (Piece.field nm value).chars ++ tail) (hlen : value.length ≤ txt.length) :
    rest <:+ tail := by
  cases h with
  | empty htag =>
      obtain rfl := List.eq_nil_of_length_eq_zero (Nat.le_zero.mp hlen)
      exact (suffix_tag htag).trans (suffix_of_empty htag hcs)
  | full htag hblank hsrc =>
      refine List.suffix_of_suffix_length_le
        ((Leaf.full htag hblank hsrc).suffix.trans hcs) (List.suffix_append _ tail) ?_
      have hle := hcs.length_le
      have hfull := length_full htag
      have hsrc := hsrc.le
      simp only [Piece.chars, List.length_cons, List.length_append, List.length_nil] at hle hfull
      omega

/-- The last character of a part's element. -/
theorem Piece.field_chars_eq (nm value : List Char) :
    (Piece.field nm value).chars = '<' :: (nm ++ '>' :: (value ++ '<' :: '/' :: nm)) ++ ['>'] := by
  simp [Piece.chars]

/-- The end tag of a part is the only one in front of the next part. -/
theorem rest_eq_frame {blank : List Char} (hps : ∀ p ∈ ps, p.Framed nms) (hmem : nm ∈ nms)
    (hnm : IsName nm) (hblank : ∀ c ∈ blank, isSpace c)
    (hend : '<' :: '/' :: (nm ++ (blank ++ '>' :: rest)) <:+
      (Piece.field nm value).chars ++ frameText ps)
    (hrest : rest <:+ frameText ps) (hfront : fromPart ps <:+ rest) : rest = frameText ps := by
  have hstop : ∀ c ∈ (blank ++ '>' :: rest).head?, ¬isNameChar c := by
    cases blank with
    | nil => simp; decide
    | cons c blank =>
        intro d hd
        cases hd
        have hc := hblank c List.mem_cons_self
        simp only [isSpace, Bool.or_eq_true, decide_eq_true_eq] at hc
        rcases hc with ((rfl | rfl) | rfl) | rfl <;> decide
  by_cases hle : ('<' :: '/' :: (nm ++ (blank ++ '>' :: rest))).length ≤ (frameText ps).length
  · -- it would stand between the parts
    have hin := List.suffix_of_suffix_length_le hend (List.suffix_append _ _) hle
    have hpart := suffix_fromPart hps hin ((tagName_name hnm hstop).2.symm ▸ hmem)
    have hlen := (hpart.trans hfront).length_le
    simp only [List.length_cons, List.length_append] at hlen
    omega
  · -- it would hold the end of the part's own end tag
    obtain ⟨gap, hgap⟩ := hrest
    have htail := List.suffix_of_suffix_length_le
        (List.suffix_append _ (frameText ps)) hend (by omega)
    obtain ⟨front, hfront'⟩ := htail
    have hsplit : '<' :: '/' :: (nm ++ blank) ++ ['>'] = front ++ gap := by
      refine List.append_cancel_right (?_ : _ ++ rest = _ ++ rest)
      rw [List.append_assoc front, hgap, hfront']
      simp
    rcases List.eq_nil_or_concat gap with rfl | ⟨gap', c, rfl⟩
    · simpa using hgap
    · have hsuffix : front <:+ (Piece.field nm value).chars := by
        obtain ⟨pre, hpre⟩ := hend
        rw [← hfront', ← List.append_assoc] at hpre
        exact ⟨pre, List.append_cancel_right hpre⟩
      rcases List.eq_nil_or_concat front with rfl | ⟨front', d, rfl⟩
      · rw [List.nil_append] at hfront'
        rw [hfront'] at hle
        exact absurd (Nat.le_refl _) hle
      · rw [Piece.field_chars_eq, List.concat_eq_append] at hsuffix
        have hd : d = '>' := by
          obtain ⟨pre, hpre⟩ := hsuffix
          rw [← List.append_assoc] at hpre
          simpa using (List.append_inj' hpre rfl).2
        have hmem : d ∈ '<' :: '/' :: (nm ++ blank) := by
          rw [List.concat_eq_append, List.concat_eq_append, ← List.append_assoc] at hsplit
          have heq := (List.append_inj' hsplit rfl).1
          rw [heq]
          simp
        rw [hd] at hmem
        have hgt : '>' ∉ nm := hnm.notMem (by decide)
        have hspace : '>' ∉ blank := fun hm => absurd (hblank _ hm) (by decide)
        simp [hgt, hspace] at hmem

/-- A leaf with the name of a part, and a text that is no shorter, that ends in front of
the next part, is the part, and the part is plain. -/
theorem Leaf.exact (hps : ∀ p ∈ ps, p.Framed nms) (hmem : nm ∈ nms) (h : Leaf nm txt cs rest)
    (hcs : cs <:+ (Piece.field nm value).chars ++ frameText ps) (hlen : value.length ≤ txt.length)
    (hfront : fromPart ps <:+ rest) :
    cs = (Piece.field nm value).chars ++ frameText ps ∧ txt = value ∧ IsData value := by
  have hrest := h.rest_suffix hcs hlen
  have hnm := h.name
  cases h with
  | empty htag =>
      obtain rfl := List.eq_nil_of_length_eq_zero (Nat.le_zero.mp hlen)
      have hpart := suffix_fromPart hps (suffix_of_empty htag hcs)
          ((tagName_of_tag htag).symm ▸ hmem)
      have hle := (hpart.trans hfront).length_le
      obtain ⟨-, more, rfl, -, -, hmore⟩ := tag_rest htag
      simp only [List.length_cons, List.length_append] at hle
      omega
  | @full start src _ blank _ _ htag hblank hsrc =>
      have hend : '<' :: '/' :: (nm ++ (blank ++ '>' :: rest)) <:+ '<' :: start :=
        (List.suffix_append src _).trans (suffix_tag htag)
      have hsame := rest_eq_frame hps hmem hnm hblank (hend.trans hcs) hrest hfront
      have hfull := length_full htag
      have hle := hcs.length_le
      have hsrc' := hsrc.le
      rw [hsame] at hfull
      simp only [Piece.chars, List.length_append, List.length_cons, List.length_nil] at hfull hle
      have hall : '<' :: start = (Piece.field nm value).chars ++ frameText ps :=
        hcs.eq_of_length_le (by
          simp only [Piece.chars, List.length_append, List.length_cons, List.length_nil]
          omega)
      have hstart : start = nm ++ '>' :: (value ++ '<' :: '/' :: (nm ++ '>' :: frameText ps)) := by
        simpa [Piece.chars] using hall
      rw [hstart, tag_append hnm] at htag
      simp only [Option.some.injEq, Prod.mk.injEq, true_and] at htag
      have hvalue := (List.append_inj htag.2 (by omega)).1
      obtain ⟨htxt, hdata⟩ := hsrc.eq_of_le (by omega)
      exact ⟨hall, by rw [← htxt, ← hvalue], by rw [hvalue]; exact hdata⟩

end

theorem fromPart_of_partsOf {ps : List Piece} (h : partsOf ps = []) : fromPart ps = [] := by
  induction ps with
  | nil => rfl
  | cons p ps ih =>
      cases hpart : p.part with
      | none =>
          rw [fromPart_cons hpart]
          exact ih ((List.filterMap_cons_none hpart).symm.trans h)
      | some part =>
          rw [partsOf, List.filterMap_cons_some hpart] at h
          cases h

theorem name_mem {nms : List (List Char)} {ps : List Piece} (hps : ∀ p ∈ ps, p.Framed nms)
    {part : List Char × List Char} (h : part ∈ partsOf ps) : part.1 ∈ nms := by
  obtain ⟨p, hp, hpart⟩ := List.mem_filterMap.mp h
  cases p with
  | field nm value =>
      cases hpart
      exact (hps _ hp).1
  | data ds => cases hpart
  | markup body => cases hpart

/-- Leaves with the names of the parts, and texts that are no shorter, are the parts,
and the parts are plain. -/
theorem Visits.frame {nms : List (List Char)} {ps : List Piece} (hps : ∀ p ∈ ps, p.Framed nms)
    {ls : List (List Char × List Char)} {cs rest : List Char} (h : Visits ls cs rest)
    (hcs : cs <:+ frameText ps)
    (hls : List.Forall₂ (fun part l => part.1 = l.1 ∧ part.2.length ≤ l.2.length) (partsOf ps) ls) :
    fromPart ps <:+ cs ∧ ls = partsOf ps ∧ ∀ part ∈ partsOf ps, IsData part.2 := by
  induction ps generalizing ls cs with
  | nil =>
      cases hls
      exact ⟨List.nil_suffix, rfl, by simp [partsOf]⟩
  | cons p ps ih =>
      have hps' : ∀ q ∈ ps, q.Framed nms := fun q hq => hps q (List.mem_cons_of_mem p hq)
      have hp := hps p List.mem_cons_self
      cases hpart : p.part with
      | none =>
          have hparts : partsOf (p :: ps) = partsOf ps := List.filterMap_cons_none hpart
          rw [hparts] at hls ⊢
          rw [fromPart_cons hpart]
          cases h with
          | done _ =>
              rw [List.forall₂_nil_right_iff] at hls
              rw [fromPart_of_partsOf hls, hls]
              exact ⟨List.nil_suffix, rfl, by simp⟩
          | @leaf _ ds es _ nm txt ls hds hleaf hmore =>
              obtain ⟨part, parts, hname, -, hparts⟩ := List.forall₂_cons_right_iff.mp hls
              have hmem : part.1 ∈ nms := name_mem hps' (hparts ▸ List.mem_cons_self)
              obtain ⟨start, rfl, hstart⟩ := hleaf.tagName
              have hin := suffix_of_framed hp hpart
                (hds.trans hcs) ((hname.1.trans hstart.symm) ▸ hmem)
              obtain ⟨hfront, hrest⟩ :=
                ih hps' (.leaf (List.suffix_refl _) hleaf hmore) hin hls
              exact ⟨hfront.trans hds, hrest⟩
      | some part =>
          obtain ⟨nm, value⟩ := part
          obtain rfl : p = .field nm value := by
            cases p <;> cases hpart
            rfl
          have hparts : partsOf (.field nm value :: ps) = (nm, value) :: partsOf ps := rfl
          rw [hparts] at hls ⊢
          cases hls with
          | @cons _ l _ ls hl hls =>
              obtain ⟨rfl, hlen⟩ := hl
              cases h with
              | leaf hds hleaf hmore =>
                  have hcs' := hds.trans hcs
                  obtain ⟨hfront, hls', hdata⟩ := ih hps' hmore (hleaf.rest_suffix hcs' hlen) hls
                  obtain ⟨hall, rfl, hvalue⟩ := hleaf.exact hps' hp.1 hcs' hlen hfront
                  refine ⟨?_, by rw [hls'], List.forall_mem_cons.mpr ⟨hvalue, hdata⟩⟩
                  rw [hall] at hds
                  exact hds

end LibCheck.Xml
