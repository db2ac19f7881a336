import LibCheck.Xml

/-!
# LibCheck.XmlReading

What a text has to look like for the reader of XML to get something out of it.

* `content_step` — what the reader of content does first.
* `Spells` — the characters that are read as a text.
* `Leaf`, `Visits` — elements that hold nothing but text stand in a text one after
  the other.
* `visits_readBytes` — those that are read from a document stand in it.
* `Node.named`, `fields` — the elements with a name, and what an element holds by name.
-/

namespace LibCheck.Xml

/-! ## what is left of a text -/

theorem name_eq_some {cs nm rest : List Char} (h : name cs = some (nm, rest)) :
    IsName nm ∧ cs = nm ++ rest ∧ ∀ c ∈ rest.head?, ¬isNameChar c := by
  cases cs with
  | nil => cases h
  | cons c ds =>
      rw [name] at h
      split at h
      · next hc =>
          obtain ⟨rfl, rfl⟩ := Prod.mk.inj (Option.some.inj h)
          refine ⟨⟨c, _, rfl, hc, fun d hd => List.mem_takeWhile_imp hd⟩, ?_, ?_⟩
          · rw [List.cons_append, List.takeWhile_append_dropWhile]
          · intro d hd
            have := List.head?_dropWhile_not isNameChar ds
            simp_all
      · cases h

theorem reference_rest {cs rest : List Char} {d : Char} (h : reference cs = some (d, rest)) :
    rest <:+ cs ∧ rest.length < cs.length := by
  have hdrop := List.dropWhile_suffix (l := cs) (fun c => decide (c ≠ ';'))
  rw [reference] at h
  split at h
  · cases h
  · next c ds he =>
      rw [he] at hdrop
      obtain ⟨e, -, he⟩ := Option.map_eq_some_iff.mp h
      cases he
      have hlen := hdrop.length_le
      rw [List.length_cons] at hlen
      exact ⟨(List.suffix_cons c rest).trans hdrop, by omega⟩

theorem attValue_rest {quote : Char} {n : Nat} {cs value rest : List Char}
    (h : attValue quote n cs = some (value, rest)) : rest <:+ cs := by
  induction n generalizing cs value with
  | zero => cases h
  | succ n ih =>
      cases cs with
      | nil => cases h
      | cons c cs =>
          rw [attValue] at h
          split at h
          · cases h
            exact List.suffix_cons c _
          split at h
          · cases h
          split at h
          · obtain ⟨⟨d, ds⟩, href, h⟩ := Option.bind_eq_some_iff.mp h
            obtain ⟨⟨more, es⟩, hmore, h⟩ := Option.bind_eq_some_iff.mp h
            cases h
            exact ((ih hmore).trans (reference_rest href).1).trans (List.suffix_cons c cs)
          · obtain ⟨⟨more, es⟩, hmore, h⟩ := Option.bind_eq_some_iff.mp h
            cases h
            exact (ih hmore).trans (List.suffix_cons c cs)

theorem attrib_rest {cs rest : List Char} {att} (h : attrib cs = some (att, rest)) :
    rest <:+ cs := by
  obtain ⟨⟨nm, ds⟩, hname, htail⟩ := Option.bind_eq_some_iff.mp h
  obtain ⟨-, rfl, -⟩ := name_eq_some hname
  have hds := List.dropWhile_suffix (l := ds) isSpace
  dsimp only at htail
  split at htail
  · next es heq =>
      have hes := List.dropWhile_suffix (l := es) isSpace
      split at htail
      · next quote fs hquote =>
          split at htail
          · obtain ⟨⟨value, gs⟩, hvalue, htail⟩ := Option.bind_eq_some_iff.mp htail
            cases htail
            rw [heq] at hds
            rw [hquote] at hes
            have hvalue := (attValue_rest hvalue).trans ((List.suffix_cons quote fs).trans hes)
            have hatt := hvalue.trans ((List.suffix_cons '=' es).trans hds)
            exact hatt.trans (List.suffix_append nm ds)
          · cases htail
      · cases htail
  · cases htail

theorem attributes_rest {n : Nat} {cs rest : List Char} {atts}
    (h : attributes n cs = some (atts, rest)) : rest <:+ cs := by
  induction n generalizing cs atts with
  | zero => cases h
  | succ n ih =>
      cases cs with
      | nil =>
          cases h
          exact List.suffix_refl _
      | cons c cs =>
          rw [attributes] at h
          have hcs := List.dropWhile_suffix (l := cs) isSpace
          split at h
          · split at h
            · cases h
              exact List.nil_suffix
            · next d ds heq =>
                rw [heq] at hcs
                split at h
                · obtain ⟨⟨att, es⟩, hatt, h⟩ := Option.bind_eq_some_iff.mp h
                  obtain ⟨⟨more, fs⟩, hmore, h⟩ := Option.bind_eq_some_iff.mp h
                  cases h
                  exact (((ih hmore).trans (attrib_rest hatt)).trans hcs).trans
                    (List.suffix_cons c cs)
                · cases h
                  exact hcs.trans (List.suffix_cons c cs)
          · cases h
            exact List.suffix_refl _

/-- A tag begins with its name and has at least one more character. -/
theorem tag_rest {cs nm rest : List Char} {atts} {empty : Bool}
    (h : tag cs = some (nm, atts, empty, rest)) :
    IsName nm ∧ ∃ more, cs = nm ++ more ∧ (∀ c ∈ more.head?, ¬isNameChar c) ∧ rest <:+ more ∧
      rest.length < more.length := by
  obtain ⟨⟨nm', ds⟩, hname, htail⟩ := Option.bind_eq_some_iff.mp h
  obtain ⟨⟨atts', es⟩, hatts, htail⟩ := Option.bind_eq_some_iff.mp htail
  obtain ⟨hnm, rfl, hstop⟩ := name_eq_some hname
  have hes := attributes_rest hatts
  have hlen := hes.length_le
  dsimp only at htail hes
  split at htail
  · split at htail
    · cases htail
      rw [List.length_cons] at hlen
      exact ⟨hnm, ds, rfl, hstop, (List.suffix_cons _ _).trans hes, by omega⟩
    · cases htail
      simp only [List.length_cons] at hlen
      exact ⟨hnm, ds, rfl, hstop,
        ((List.suffix_cons _ _).trans (List.suffix_cons _ _)).trans hes, by omega⟩
    · cases htail
  · cases htail

theorem endTag_rest {cs nm rest : List Char} (h : endTag nm cs = some rest) :
    ∃ blank, (∀ c ∈ blank, isSpace c) ∧ cs = nm ++ (blank ++ '>' :: rest) := by
  obtain ⟨⟨nm', ds⟩, hname, htail⟩ := Option.bind_eq_some_iff.mp h
  obtain ⟨-, rfl, -⟩ := name_eq_some hname
  dsimp only at htail
  split at htail
  · next es heq =>
      split at htail
      · next he =>
          cases htail
          refine ⟨ds.takeWhile isSpace, fun c hc => List.mem_takeWhile_imp hc, ?_⟩
          rw [← heq, List.takeWhile_append_dropWhile, he]
      · cases htail
  · cases htail

theorem comment_rest {cs rest : List Char} (h : comment cs = some rest) : rest <:+ cs := by
  fun_induction comment cs with
  | case1 => cases h
  | case2 cs =>
      cases h
      exact List.suffix_append ['-', '-', '>'] _
  | case3 => cases h
  | case4 c cs _ _ ih => exact (ih h).trans (List.suffix_cons c cs)

theorem cdata_rest {cs data rest : List Char} (h : cdata cs = some (data, rest)) :
    cs = data ++ ']' :: ']' :: '>' :: rest := by
  fun_induction cdata cs generalizing data with
  | case1 => cases h
  | case2 cs =>
      cases h
      rfl
  | case3 c cs _ ih =>
      obtain ⟨⟨more, ds⟩, hmore, he⟩ := Option.map_eq_some_iff.mp h
      cases he
      rw [ih hmore, List.cons_append]

theorem piEnd_rest {cs rest : List Char} (h : piEnd cs = some rest) : rest <:+ cs := by
  fun_induction piEnd cs with
  | case1 => cases h
  | case2 cs =>
      cases h
      exact List.suffix_append ['?', '>'] _
  | case3 c cs _ ih => exact (ih h).trans (List.suffix_cons c cs)

theorem procInst_rest {cs rest : List Char} (h : procInst cs = some rest) : rest <:+ cs := by
  obtain ⟨⟨target, ds⟩, hname, htail⟩ := Option.bind_eq_some_iff.mp h
  obtain ⟨-, rfl, -⟩ := name_eq_some hname
  dsimp only at htail
  apply List.IsSuffix.trans ?_ (List.suffix_append target ds)
  split at htail
  · cases htail
  split at htail
  · cases htail
    exact List.suffix_append ['?', '>'] _
  · split at htail
    · exact (piEnd_rest htail).trans (List.suffix_cons _ _)
    · cases htail
  · cases htail


/-- What the reader of content does first, and how much of the text is left then. -/
inductive Step (n : Nat) : List Char → List Node → List Char → Prop where
  | stop {cs : List Char} : (∀ c ∈ cs.head?, c = '<') → Step n cs [] cs
  | skip {cs ds rest : List Char} {nodes : List Node} : ds <:+ cs → ds.length < cs.length →
      content n ds = some (nodes, rest) → Step n cs nodes rest
  | cdata {data ds rest : List Char} {nodes : List Node} : content n ds = some (nodes, rest) →
      Step n ("<![CDATA[".toList ++ (data ++ ("]]>".toList ++ ds))) (data.map .char ++ nodes) rest
  | ref {ds es rest : List Char} {d : Char} {nodes : List Node} : es <:+ ds →
      es.length < ds.length →
      content n es = some (nodes, rest) → Step n ('&' :: ds) (.char d :: nodes) rest
  | char {c : Char} {ds rest : List Char} {nodes : List Node} : c ≠ '<' → c ≠ '&' →
      ¬(c = ']' ∧ [']', '>'] <+: ds) → content n ds = some (nodes, rest) →
      Step n (c :: ds) (.char c :: nodes) rest
  | empty {start ds rest nm : List Char} {atts} {nodes : List Node} :
      tag start = some (nm, atts, true, ds) → content n ds = some (nodes, rest) →
      Step n ('<' :: start) (.elem nm atts [] :: nodes) rest
  | elem {start inner blank ds rest nm : List Char} {atts} {children nodes : List Node} :
      tag start = some (nm, atts, false, inner) → (∀ c ∈ blank, isSpace c) →
      content n inner = some (children, '<' :: '/' :: (nm ++ (blank ++ '>' :: ds))) →
      content n ds = some (nodes, rest) → Step n ('<' :: start)
        (.elem nm atts children :: nodes) rest

theorem content_step {n : Nat} {cs rest : List Char} {nodes : List Node}
    (h : content (n + 1) cs = some (nodes, rest)) : Step n cs nodes rest := by
  cases cs with
  | nil =>
      cases h
      exact .stop (by simp)
  | cons c cs =>
      rw [content.eq_def] at h
      dsimp only at h
      split at h
      · next hc =>
          subst hc
          split at h
          · cases h
            exact .stop (by simp)
          · next ds =>
              obtain ⟨es, hes, h⟩ := Option.bind_eq_some_iff.mp h
              have hsuff := (comment_rest hes).trans (List.suffix_append ['<', '!', '-', '-'] ds)
              have hlen := (comment_rest hes).length_le
              exact .skip hsuff (by simp only [List.length_cons]; omega) h
          · next ds =>
              obtain ⟨⟨data, es⟩, hdata, h⟩ := Option.bind_eq_some_iff.mp h
              obtain ⟨⟨more, fs⟩, hmore, h⟩ := Option.bind_eq_some_iff.mp h
              cases h
              rw [cdata_rest hdata]
              exact .cdata hmore
          · next ds =>
              obtain ⟨es, hes, h⟩ := Option.bind_eq_some_iff.mp h
              have hsuff := (procInst_rest hes).trans (List.suffix_append ['<', '?'] ds)
              have hlen := (procInst_rest hes).length_le
              exact .skip hsuff (by simp only [List.length_cons]; omega) h
          · obtain ⟨⟨nm, atts, empty, ds⟩, htag, h⟩ := Option.bind_eq_some_iff.mp h
            cases empty with
            | true =>
                obtain ⟨⟨more, es⟩, hmore, h⟩ := Option.bind_eq_some_iff.mp h
                cases h
                exact .empty htag hmore
            | false =>
                obtain ⟨⟨children, es⟩, hinner, h⟩ := Option.bind_eq_some_iff.mp h
                dsimp only at h
                split at h
                · obtain ⟨fs, hend, h⟩ := Option.bind_eq_some_iff.mp h
                  obtain ⟨⟨more, gs⟩, hmore, h⟩ :=
                    Option.bind_eq_some_iff.mp ((Option.bind_some ..).symm.trans h)
                  cases h
                  obtain ⟨blank, hblank, rfl⟩ := endTag_rest hend
                  exact .elem htag hblank hinner hmore
                · cases h
      · next hlt =>
          split at h
          · next hc =>
              subst hc
              obtain ⟨⟨d, ds⟩, href, h⟩ := Option.bind_eq_some_iff.mp h
              obtain ⟨⟨more, es⟩, hmore, h⟩ := Option.bind_eq_some_iff.mp h
              cases h
              exact .ref (reference_rest href).1 (reference_rest href).2 hmore
          · next hamp =>
              split at h
              · cases h
              · next hend =>
                  obtain ⟨⟨more, es⟩, hmore, h⟩ := Option.bind_eq_some_iff.mp h
                  cases h
                  exact .char hlt hamp hend hmore

/-! ## text -/

/-- The text of content that holds nothing else. -/
def textOf : List Node → Option (List Char)
  | [] => some []
  | .char c :: nodes => (textOf nodes).map fun cs => c :: cs
  | .elem _ _ _ :: _ => none

@[simp] theorem textOf_chars (cs : List Char) : textOf (cs.map .char) = some cs := by
  induction cs with
  | nil => rfl
  | cons c cs ih => rw [List.map_cons, textOf, ih, Option.map_some]

theorem textOf_chars_append (cs : List Char) (nodes : List Node) :
    textOf (cs.map .char ++ nodes) = (textOf nodes).map fun ds => cs ++ ds := by
  induction cs with
  | nil => simp
  | cons c cs ih =>
      rw [List.map_cons, List.cons_append, textOf, ih, Option.map_map]
      rfl

/-- Characters that a reader may take for a text: they are not fewer, and if they are
not more they are the text, without markup. -/
structure Spells (src txt : List Char) : Prop where
  le : txt.length ≤ src.length
  eq_of_le : src.length ≤ txt.length → src = txt ∧ IsData src

theorem Spells.of_lt {src txt : List Char} (h : txt.length < src.length) : Spells src txt :=
  ⟨by omega, fun hle => by omega⟩

theorem IsData.nil : IsData [] := ⟨by simp, by simp, by simp⟩

theorem IsData.cons {c : Char} {cs : List Char} (hlt : c ≠ '<') (hamp : c ≠ '&')
    (hend : ¬(c = ']' ∧ [']', '>'] <+: cs)) (h : IsData cs) : IsData (c :: cs) := by
  refine ⟨?_, ?_, fun hinfix => ?_⟩
  · simp [h.lt, hlt.symm]
  · simp [h.amp, hamp.symm]
  · rcases List.infix_cons_iff.mp hinfix with hpre | hinfix
    · obtain ⟨rfl, hmore⟩ := List.cons_prefix_cons.mp hpre
      exact hend ⟨rfl, hmore⟩
    · exact h.cdataEnd hinfix

/-- Content that holds nothing but text. -/
theorem content_spells {n : Nat} {cs rest txt : List Char} {nodes : List Node}
    (h : content n cs = some (nodes, rest)) (htxt : textOf nodes = some txt) :
    ∃ src, cs = src ++ rest ∧ Spells src txt := by
  induction n generalizing cs nodes txt with
  | zero => cases h
  | succ n ih =>
      cases content_step h with
      | stop _ =>
          cases htxt
          exact ⟨[], rfl, ⟨Nat.le_refl 0, fun _ => ⟨rfl, .nil⟩⟩⟩
      | skip hds hlen hmore =>
          obtain ⟨src, rfl, hsrc⟩ := ih hmore htxt
          obtain ⟨pre, rfl⟩ := hds
          have hle := hsrc.le
          refine ⟨pre ++ src, by simp, .of_lt ?_⟩
          simp only [List.length_append] at hlen ⊢
          omega
      | @cdata data _ _ _ hmore =>
          rw [textOf_chars_append] at htxt
          obtain ⟨more, htail, rfl⟩ := Option.map_eq_some_iff.mp htxt
          obtain ⟨src, rfl, hsrc⟩ := ih hmore htail
          have hle := hsrc.le
          refine ⟨"<![CDATA[".toList ++ (data ++ ("]]>".toList ++ src)), by simp, .of_lt ?_⟩
          simp only [List.length_append, String.length_toList]
          have hlen : "<![CDATA[".length = 9 := rfl
          omega
      | ref hes hlen hmore =>
          obtain ⟨more, htail, rfl⟩ := Option.map_eq_some_iff.mp htxt
          obtain ⟨src, rfl, hsrc⟩ := ih hmore htail
          obtain ⟨pre, rfl⟩ := hes
          have hle := hsrc.le
          refine ⟨'&' :: (pre ++ src), by simp, .of_lt ?_⟩
          simp only [List.length_append, List.length_cons] at hlen ⊢
          omega
      | char hlt hamp hend hmore =>
          obtain ⟨more, htail, rfl⟩ := Option.map_eq_some_iff.mp htxt
          obtain ⟨src, rfl, hsrc⟩ := ih hmore htail
          have hle := hsrc.le
          refine ⟨_ :: src, rfl, ⟨Nat.succ_le_succ hle, fun hge => ?_⟩⟩
          obtain ⟨rfl, hdata⟩ := hsrc.eq_of_le (by simpa using hge)
          exact ⟨rfl, hdata.cons hlt hamp fun he => hend ⟨he.1, he.2.trans (List.prefix_append ..)⟩⟩
      | empty _ _ => cases htxt
      | elem _ _ _ _ => cases htxt

/-! ## leaves -/

mutual

/-- The elements that hold nothing but text, in the order of the document, each with its
name and text. -/
def Node.leaves : Node → List (List Char × List Char)
  | .char _ => []
  | .elem nm _ children =>
      match textOf children with
      | some txt => [(nm, txt)]
      | none => leavesIn children

/-- The leaves of content. -/
def leavesIn : List Node → List (List Char × List Char)
  | [] => []
  | node :: nodes => node.leaves ++ leavesIn nodes

end

theorem leavesIn_chars_append (cs : List Char) (nodes : List Node) :
    leavesIn (cs.map .char ++ nodes) = leavesIn nodes := by
  induction cs with
  | nil => rfl
  | cons c cs ih => rw [List.map_cons, List.cons_append, leavesIn, ih, Node.leaves, List.nil_append]

/-- A leaf stands at the front of a text, up to a rest of it. -/
inductive Leaf (nm : List Char) : List Char → List Char → List Char → Prop where
  | empty {start rest : List Char} {atts} : tag start = some (nm, atts, true, rest) →
      Leaf nm [] ('<' :: start) rest
  | full {start src txt blank rest : List Char} {atts} :
      tag start = some (nm, atts, false, src ++ '<' :: '/' :: (nm ++ (blank ++ '>' :: rest))) →
      (∀ c ∈ blank, isSpace c) → Spells src txt → Leaf nm txt ('<' :: start) rest

theorem suffix_tag {start nm rest : List Char} {atts} {empty : Bool}
    (h : tag start = some (nm, atts, empty, rest)) : rest <:+ '<' :: start := by
  obtain ⟨-, more, rfl, -, hrest, -⟩ := tag_rest h
  exact (hrest.trans (List.suffix_append nm more)).trans (List.suffix_cons '<' _)

theorem Leaf.suffix {nm txt cs rest : List Char} (h : Leaf nm txt cs rest) : rest <:+ cs := by
  cases h with
  | empty htag => exact suffix_tag htag
  | @full start src txt blank rest atts htag _ _ =>
      have hrest : rest <:+ (src ++ '<' :: '/' :: (nm ++ blank)) ++ ['>'] ++ rest :=
        List.suffix_append _ rest
      exact (by simpa using hrest : rest <:+ _).trans (suffix_tag htag)

/-- Leaves stand in a text one after the other, up to a rest of it. -/
inductive Visits : List (List Char × List Char) → List Char → List Char → Prop where
  | done {cs rest : List Char} : rest <:+ cs → Visits [] cs rest
  | leaf {cs ds es rest nm txt : List Char} {ls : List (List Char × List Char)} : ds <:+ cs →
      Leaf nm txt ds es → Visits ls es rest → Visits ((nm, txt) :: ls) cs rest

namespace Visits

variable {ls ms : List (List Char × List Char)} {cs ds rest : List Char}

theorem of_suffix (h : Visits ls ds rest) (hds : ds <:+ cs) : Visits ls cs rest := by
  cases h with
  | done hrest => exact .done (hrest.trans hds)
  | leaf hes hleaf hmore => exact .leaf (hes.trans hds) hleaf hmore

theorem suffix (h : Visits ls cs rest) : rest <:+ cs := by
  induction h with
  | done hrest => exact hrest
  | leaf hds hleaf _ ih => exact (ih.trans hleaf.suffix).trans hds

theorem append (h : Visits ls cs ds) (hms : Visits ms ds rest) : Visits (ls ++ ms) cs rest := by
  induction h with
  | done hds => exact hms.of_suffix hds
  | leaf hes hleaf _ ih => exact .leaf hes hleaf (ih hms)

theorem sublist (h : Visits ls cs rest) (hms : ms.Sublist ls) : Visits ms cs rest := by
  induction h generalizing ms with
  | done hrest =>
      obtain rfl := List.sublist_nil.mp hms
      exact .done hrest
  | leaf hds hleaf _ ih =>
      cases hms with
      | cons _ hms => exact (ih hms).of_suffix (hleaf.suffix.trans hds)
      | cons_cons _ hms => exact .leaf hds hleaf (ih hms)

/-- An element, up to what follows its end tag. -/
theorem elem {start inner blank nm : List Char} {atts} {children : List Node} {n : Nat}
    (htag : tag start = some (nm, atts, false, inner)) (hblank : ∀ c ∈ blank, isSpace c)
    (hinner : content n inner = some (children, '<' :: '/' :: (nm ++ (blank ++ '>' :: rest))))
    (hkids : Visits (leavesIn children) inner ('<' :: '/' :: (nm ++ (blank ++ '>' :: rest)))) :
    Visits (Node.elem nm atts children).leaves ('<' :: start) rest := by
  rw [Node.leaves]
  cases htxt : textOf children with
  | some txt =>
      obtain ⟨src, rfl, hsrc⟩ := content_spells hinner htxt
      exact .leaf (List.suffix_refl _) (.full htag hblank hsrc) (.done (List.suffix_refl _))
  | none =>
      have hrest : rest <:+ ('<' :: '/' :: (nm ++ blank) ++ ['>']) ++ rest :=
          List.suffix_append _ rest
      have hvisits := (hkids.append (.done (by simpa using hrest))).of_suffix (suffix_tag htag)
      rwa [List.append_nil] at hvisits

end Visits

/-- What is read from a text stands in it. -/
theorem visits_content {n : Nat} {cs rest : List Char} {nodes : List Node}
    (h : content n cs = some (nodes, rest)) : Visits (leavesIn nodes) cs rest := by
  induction n generalizing cs nodes rest with
  | zero => cases h
  | succ n ih =>
      cases content_step h with
      | stop _ => exact .done (List.suffix_refl _)
      | skip hds _ hmore => exact (ih hmore).of_suffix hds
      | cdata hmore =>
          rw [leavesIn_chars_append]
          refine (ih hmore).of_suffix ?_
          exact (List.suffix_append "]]>".toList _).trans
            ((List.suffix_append _ _).trans (List.suffix_append _ _))
      | ref hes _ hmore => exact (ih hmore).of_suffix (hes.trans (List.suffix_cons _ _))
      | char _ _ _ hmore => exact (ih hmore).of_suffix (List.suffix_cons _ _)
      | empty htag hmore =>
          exact .leaf (List.suffix_refl _) (.empty htag) (ih hmore)
      | elem htag hblank hinner hmore =>
          exact (Visits.elem htag hblank hinner (ih hinner)).append (ih hmore)

theorem misc_rest {n : Nat} {cs rest : List Char} (h : misc n cs = some rest) : rest <:+ cs := by
  induction n generalizing cs with
  | zero => cases h
  | succ n ih =>
      cases cs with
      | nil =>
          cases h
          exact List.suffix_refl _
      | cons c cs =>
          rw [misc] at h
          split at h
          · exact (ih h).trans (List.suffix_cons c cs)
          · split at h
            · next he =>
                obtain ⟨ds, hds, h⟩ := Option.bind_eq_some_iff.mp h
                rw [he]
                exact ((ih h).trans (comment_rest hds)).trans
                  (List.suffix_append ['<', '!', '-', '-'] _)
            · next he =>
                obtain ⟨ds, hds, h⟩ := Option.bind_eq_some_iff.mp h
                rw [he]
                exact ((ih h).trans (procInst_rest hds)).trans (List.suffix_append ['<', '?'] _)
            · cases h
              exact List.suffix_refl _

theorem xmlDecl_rest {cs rest : List Char} (h : xmlDecl cs = some rest) : rest <:+ cs := by
  rw [xmlDecl.eq_def] at h
  split at h
  · next c ds =>
      split at h
      · obtain ⟨⟨atts, es⟩, hatts, h⟩ := Option.bind_eq_some_iff.mp h
        have hes := (attributes_rest hatts).trans
            (List.suffix_append ['<', '?', 'x', 'm', 'l'] (c :: ds))
        dsimp only at h hes
        split at h
        · split at h
          · cases h
            exact (List.suffix_append ['?', '>'] _).trans hes
          · cases h
        · cases h
      · cases h
        exact List.suffix_refl _
  · cases h
    exact List.suffix_refl _

theorem visits_element {cs rest : List Char} {node : Node} (h : element cs = some (node, rest)) :
    Visits node.leaves ('<' :: cs) rest := by
  rw [element] at h
  obtain ⟨⟨nm, atts, empty, ds⟩, htag, h⟩ := Option.bind_eq_some_iff.mp h
  cases empty with
  | true =>
      cases h
      exact .leaf (List.suffix_refl _) (.empty htag) (.done (List.suffix_refl _))
  | false =>
      obtain ⟨⟨children, es⟩, hinner, h⟩ := Option.bind_eq_some_iff.mp h
      dsimp only at h
      split at h
      · obtain ⟨fs, hend, h⟩ := Option.bind_eq_some_iff.mp h
        cases h
        obtain ⟨blank, hblank, rfl⟩ := endTag_rest hend
        exact .elem htag hblank hinner (visits_content hinner)
      · cases h

/-- What is read from a document stands in it. -/
theorem visits_readBytes {bytes : List UInt8} {root : Node} (h : readBytes bytes = some root) :
    ∃ cs, decodeUtf8 bytes = some cs ∧ (∀ c ∈ normalizeEol cs, isChar c) ∧
      Visits root.leaves (normalizeEol cs) [] := by
  obtain ⟨cs, hdec, h⟩ := Option.bind_eq_some_iff.mp h
  rw [document] at h
  dsimp only at h
  split at h
  · next hall =>
      obtain ⟨ds, hdecl, h⟩ := Option.bind_eq_some_iff.mp h
      obtain ⟨es, hmisc, h⟩ := Option.bind_eq_some_iff.mp h
      split at h
      · obtain ⟨⟨node, gs⟩, hroot, h⟩ := Option.bind_eq_some_iff.mp h
        obtain ⟨hs, -, h⟩ := Option.bind_eq_some_iff.mp h
        split at h
        · cases h
          have hvisits := (visits_element hroot).of_suffix
              ((misc_rest hmisc).trans (xmlDecl_rest hdecl))
          refine ⟨cs, hdec, List.all_eq_true.mp hall, ?_⟩
          have hend := hvisits.append (.done List.nil_suffix)
          rwa [List.append_nil] at hend
        · cases h
      · cases h
  · cases h

/-! ## elements by name -/

/-- What an element holds. -/
def Node.children : Node → List Node
  | .char _ => []
  | .elem _ _ children => children

mutual

/-- The elements with a given name, in the order of the document. -/
def Node.named (nm : List Char) : Node → List Node
  | .char _ => []
  | .elem n atts children =>
      (if n = nm then [.elem n atts children] else []) ++ namedIn nm children

/-- The elements with a given name in content. -/
def namedIn (nm : List Char) : List Node → List Node
  | [] => []
  | node :: nodes => node.named nm ++ namedIn nm nodes

end

/-- The elements in content, each with its name and text, if they hold nothing but text. -/
def fields : List Node → Option (List (List Char × List Char))
  | [] => some []
  | .char _ :: nodes => fields nodes
  | .elem nm _ children :: nodes => do
      let txt ← textOf children
      let more ← fields nodes
      some ((nm, txt) :: more)

theorem namedIn_append (nm : List Char) (nodes more : List Node) :
    namedIn nm (nodes ++ more) = namedIn nm nodes ++ namedIn nm more := by
  induction nodes with
  | nil => rfl
  | cons node nodes ih => rw [List.cons_append, namedIn, namedIn, ih, List.append_assoc]

/-- Text holds no elements. -/
theorem of_textOf {nodes : List Node} {txt : List Char} (h : textOf nodes = some txt) :
    (∀ nm, namedIn nm nodes = []) ∧ fields nodes = some [] := by
  induction nodes generalizing txt with
  | nil => exact ⟨fun _ => rfl, rfl⟩
  | cons node nodes ih =>
      cases node with
      | elem n atts children => cases h
      | char c =>
          obtain ⟨more, hmore, -⟩ := Option.map_eq_some_iff.mp h
          obtain ⟨hnamed, hfields⟩ := ih hmore
          exact ⟨fun nm => by rw [namedIn, hnamed, Node.named, List.append_nil], hfields⟩

/-- The fields of content are its leaves; no element in it has fields. -/
theorem of_fields {nodes : List Node} {fs : List (List Char × List Char)}
    (h : fields nodes = some fs) :
    leavesIn nodes = fs ∧ ∀ nm, ∀ e ∈ namedIn nm nodes, fields e.children = some [] := by
  induction nodes generalizing fs with
  | nil =>
      cases h
      exact ⟨rfl, fun _ e he => nomatch he⟩
  | cons node nodes ih =>
      cases node with
      | char c =>
          obtain ⟨hleaves, hnamed⟩ := ih h
          exact ⟨by rw [leavesIn, hleaves, Node.leaves, List.nil_append], hnamed⟩
      | elem n atts children =>
          obtain ⟨txt, htxt, hmore⟩ := Option.bind_eq_some_iff.mp h
          obtain ⟨more, hfields, hmore⟩ := Option.bind_eq_some_iff.mp hmore
          cases hmore
          obtain ⟨hleaves, hnamed⟩ := ih hfields
          refine ⟨by rw [leavesIn, hleaves, Node.leaves, htxt]; rfl, fun nm e he => ?_⟩
          rw [namedIn, Node.named, (of_textOf htxt).1, List.append_nil] at he
          rcases List.mem_append.mp he with he | he
          · split at he
            · obtain rfl := List.mem_singleton.mp he
              exact (of_textOf htxt).2
            · cases he
          · exact hnamed nm e he

section

variable {nm : List Char} {f : Node → List (List Char × List Char)}

mutual

/-- The fields of the elements with a given name are leaves, in this order. -/
theorem Node.fields_sublist (node : Node)
    (h : ∀ e ∈ node.named nm, fields e.children = some (f e)) :
    ((node.named nm).flatMap f).Sublist node.leaves := by
  cases node with
  | char c => exact List.Sublist.refl _
  | elem n atts children =>
      rw [Node.named] at h ⊢
      rw [Node.leaves]
      cases htxt : textOf children with
      | some txt =>
          obtain ⟨hnamed, hfields⟩ := of_textOf htxt
          rw [hnamed, List.append_nil] at h ⊢
          split
          · next hn =>
              have he := h (.elem n atts children)
                  (by rw [if_pos hn]; exact List.mem_singleton_self _)
              rw [Node.children, hfields] at he
              rw [List.flatMap_singleton, ← Option.some.inj he]
              exact List.nil_sublist _
          · exact List.nil_sublist _
      | none =>
          by_cases hn : n = nm
          · rw [if_pos hn] at h ⊢
            obtain ⟨hleaves, hinner⟩ :=
              of_fields (h (.elem n atts children) List.mem_cons_self)
            have hnil : (namedIn nm children).flatMap f = [] := by
              refine List.flatMap_eq_nil_iff.mpr fun e he => ?_
              have hf := h e (List.mem_cons_of_mem _ he)
              exact Option.some.inj (hf.symm.trans (hinner nm e he))
            rw [List.flatMap_append, hnil, List.append_nil, List.flatMap_singleton]
            exact hleaves ▸ List.Sublist.refl _
          · rw [if_neg hn, List.nil_append] at h ⊢
            exact fieldsIn_sublist children h

theorem fieldsIn_sublist (nodes : List Node)
    (h : ∀ e ∈ namedIn nm nodes, fields e.children = some (f e)) :
    ((namedIn nm nodes).flatMap f).Sublist (leavesIn nodes) := by
  cases nodes with
  | nil => exact List.Sublist.refl _
  | cons node nodes =>
      rw [namedIn] at h ⊢
      rw [List.flatMap_append, leavesIn]
      exact (Node.fields_sublist node fun e he => h e (List.mem_append_left _ he)).append
        (fieldsIn_sublist nodes fun e he => h e (List.mem_append_right _ he))

end

end

end LibCheck.Xml
