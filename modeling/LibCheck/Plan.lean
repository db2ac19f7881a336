import LibCheck.Brackets
import LibCheck.Directive
import LibCheck.Groups

/-!
# LibCheck.Plan

What a sequence of directives asks for, in its own terms: which tests there are,
in which suite and test case each belongs (`reading`), and which directives may
follow which (`Fits`).  A suite directive opens a test case of the same name, and
a specification begins as if it had a suite directive for `Core`.

* `mem_lang_ppTestName` — the names that the script takes are the identifiers
  of C.
* `arranged_of_throughout` — in a specification whose directives all fit, the
  tests of a suite and those of a test case stand together, a test case belongs
  to one suite, and no two tests have the same name.
-/

namespace LibCheck.Checkmk

open Awk
open Regex (lang seqs)

/-! ## identifiers -/

/-- The universal character names of C. -/
inductive UniversalName : Text → Prop where
  | short {q : Text} (hlen : q.length = 4) (hhex : ∀ c ∈ q, isHex c) :
      UniversalName ('\\' :: 'u' :: q)
  | long {q : Text} (hlen : q.length = 8) (hhex : ∀ c ∈ q, isHex c) :
      UniversalName ('\\' :: 'U' :: q)

/-- The identifiers of C. -/
inductive Identifier : Text → Prop where
  | nondigit {c : Char} (h : isNondigit c) : Identifier [c]
  | universal {u : Text} (h : UniversalName u) : Identifier u
  | concatNondigit {w : Text} {c : Char} (hw : Identifier w) (h : isNondigit c) :
      Identifier (w ++ [c])
  | concatDigit {w : Text} {c : Char} (hw : Identifier w) (h : c.isDigit) : Identifier (w ++ [c])
  | concatUniversal {w u : Text} (hw : Identifier w) (h : UniversalName u) : Identifier (w ++ u)

theorem mem_lang_replicate_cls {p : Char → Bool} {n : Nat} {u : Text} :
    u ∈ lang (seqs (List.replicate n (.cls p))) ↔ u.length = n ∧ ∀ c ∈ u, p c := by
  rw [← List.map_replicate, Regex.mem_lang_seqs_cls]
  induction n generalizing u with
  | zero => cases u <;> simp
  | succ n ih =>
      cases u with
      | nil => simp
      | cons c u =>
          simp only [List.replicate_succ, List.forall₂_cons, ih, List.length_cons,
            List.forall_mem_cons]
          grind

theorem mem_lang_ppHexQuad {u : Text} : u ∈ lang ppHexQuad ↔ u.length = 4 ∧ ∀ c ∈ u, isHex c :=
  mem_lang_replicate_cls

theorem mem_lang_two_ppHexQuad {u : Text} :
    u ∈ lang (seqs [ppHexQuad, ppHexQuad]) ↔ u.length = 8 ∧ ∀ c ∈ u, isHex c := by
  simp only [seqs, List.foldr, Regex.mem_lang_seq, mem_lang_ppHexQuad, Regex.mem_lang_eps]
  constructor
  · rintro ⟨v, ⟨hv, hv'⟩, x, ⟨y, ⟨hy, hy'⟩, _, rfl, rfl⟩, rfl⟩
    refine ⟨by simp [hv, hy], ?_⟩
    simp only [List.append_nil, List.forall_mem_append]
    exact ⟨hv', hy'⟩
  · rintro ⟨hlen, hhex⟩
    refine ⟨u.take 4, ⟨by simp [hlen], fun c hc => hhex c (List.mem_of_mem_take hc)⟩, u.drop 4,
      ⟨u.drop 4, ⟨by simp [hlen], fun c hc => hhex c (List.mem_of_mem_drop hc)⟩, [], rfl, by simp⟩,
      by simp⟩

theorem mem_lang_ppUcn {u : Text} : u ∈ lang ppUcn ↔ UniversalName u := by
  constructor
  · intro h
    rcases u with _ | ⟨c, u⟩
    · simp [ppUcn, chr, Regex.mem_lang_seq] at h
    · obtain ⟨hc, hu⟩ := Regex.cons_mem_lang_cls_seq.mp h
      obtain rfl : c = '\\' := by simpa using hc
      rcases Regex.mem_lang_alt.mp hu with hu | hu
      · rcases u with _ | ⟨d, u⟩
        · simp [chr, Regex.mem_lang_seq] at hu
        · obtain ⟨hd, hq⟩ := Regex.cons_mem_lang_cls_seq.mp hu
          obtain rfl : d = 'u' := by simpa using hd
          obtain ⟨hlen, hhex⟩ := mem_lang_ppHexQuad.mp hq
          exact .short hlen hhex
      · rw [Regex.seqs_cons] at hu
        rcases u with _ | ⟨d, u⟩
        · simp [chr, Regex.mem_lang_seq] at hu
        · obtain ⟨hd, hq⟩ := Regex.cons_mem_lang_cls_seq.mp hu
          obtain rfl : d = 'U' := by simpa using hd
          obtain ⟨hlen, hhex⟩ := mem_lang_two_ppHexQuad.mp hq
          exact .long hlen hhex
  · intro h
    cases h with
    | short hlen hhex =>
        refine Regex.cons_mem_lang_cls_seq.mpr ⟨by simp, Regex.mem_lang_alt.mpr (.inl ?_)⟩
        exact Regex.cons_mem_lang_cls_seq.mpr ⟨by simp, mem_lang_ppHexQuad.mpr ⟨hlen, hhex⟩⟩
    | long hlen hhex =>
        refine Regex.cons_mem_lang_cls_seq.mpr ⟨by simp, Regex.mem_lang_alt.mpr (.inr ?_)⟩
        exact Regex.cons_mem_lang_cls_seq.mpr ⟨by simp, mem_lang_two_ppHexQuad.mpr ⟨hlen, hhex⟩⟩

/-- The pattern of a test's name describes the identifiers of C. -/
theorem mem_lang_ppTestName {w : Text} : w ∈ lang ppTestName ↔ Identifier w := by
  constructor
  · intro h
    obtain ⟨u, hu, v, hv, rfl⟩ := Regex.mem_lang_seq.mp h
    have hfirst : Identifier u := by
      rcases Regex.mem_lang_alt.mp hu with ⟨c, hc, rfl⟩ | hu
      · exact .nondigit hc
      · exact .universal (mem_lang_ppUcn.mp hu)
    obtain ⟨ws, rfl, hws⟩ := Regex.mem_lang_star.mp hv
    -- one more part of the name after the other
    clear h hu hv
    induction ws generalizing u with
    | nil => simpa using hfirst
    | cons x xs ih =>
        rw [List.flatten_cons, ← List.append_assoc]
        refine ih _ ?_ fun y hy => hws y (List.mem_cons_of_mem _ hy)
        rcases Regex.mem_lang_alt.mp (hws x List.mem_cons_self) with ⟨c, hc, rfl⟩ | hx
        · rcases Bool.or_eq_true _ _ |>.mp hc with hc | hc
          · exact .concatNondigit hfirst hc
          · exact .concatDigit hfirst hc
        · exact .concatUniversal hfirst (mem_lang_ppUcn.mp hx)
  · intro h
    have hmore : ∀ {w x : Text}, w ∈ lang ppTestName →
        x ∈ lang (.alt (.cls fun c => isNondigit c || c.isDigit) ppUcn) →
        w ++ x ∈ lang ppTestName := by
      intro w x hw hx
      obtain ⟨u, hu, v, hv, rfl⟩ := Regex.mem_lang_seq.mp hw
      rw [List.append_assoc]
      exact Regex.append_mem_lang_seq hu (Regex.mem_lang_star_concat hv hx)
    have hone : ∀ {x : Text}, x ∈ lang (.alt (.cls isNondigit) ppUcn) → x ∈ lang ppTestName := by
      intro x hx
      have h := Regex.append_mem_lang_seq hx (Regex.nil_mem_lang_star
        (.alt (.cls fun c => isNondigit c || c.isDigit) ppUcn))
      rw [List.append_nil] at h
      exact h
    induction h with
    | nondigit h => exact hone (by simp [h])
    | universal h => exact hone (by simp [mem_lang_ppUcn, h])
    | concatNondigit _ h ih => exact hmore ih (by simp [h])
    | concatDigit _ h ih => exact hmore ih (by simp [h])
    | concatUniversal _ h ih => exact hmore ih (by simp [mem_lang_ppUcn, h])

instance (w : Text) : Decidable (Identifier w) := decidable_of_iff _ mem_lang_ppTestName

/-! ## readings -/

/-- A test with the suite and the test case that are current at its directive. -/
structure Placed where
  suite : Text
  tcase : Text
  test : Test
deriving DecidableEq, Repr

/-- What has been read of a specification: the current suite and test case,
whether the test case was opened by a suite directive and nothing has followed
in it, and the tests so far. -/
structure Reading where
  suite : Text
  tcase : Text
  implied : Bool
  placed : List Placed

/-- One more directive. -/
def Reading.step (r : Reading) : Directive → Reading
  | .suite name => { r with suite := name, tcase := name, implied := true }
  | .tcase name => { r with tcase := name, implied := false }
  | .test t => { r with implied := false, placed := r.placed ++ [⟨r.suite, r.tcase, t⟩] }
  | _ => r

/-- A specification begins with an implicit suite directive. -/
def reading (ds : List Directive) : Reading :=
  ds.foldl .step ⟨lit "Core", lit "Core", true, []⟩

@[simp] theorem reading_concat (ds : List Directive) (d : Directive) :
    reading (ds ++ [d]) = (reading ds).step d := by
  simp [reading]

/-- No directive for the inside of `main()`. -/
def NoMain (ds : List Directive) : Prop := .mainPre ∉ ds ∧ .mainPost ∉ ds

instance (ds : List Directive) : Decidable (NoMain ds) := inferInstanceAs (Decidable (_ ∧ _))

/-- May the directive follow these? -/
def Fits (ds : List Directive) : Directive → Prop
  | .suite name => NoMain ds ∧ ∀ p ∈ (reading ds).placed, p.suite ≠ name
  | .tcase name => NoMain ds ∧ ∀ p ∈ (reading ds).placed, p.tcase ≠ name
  | .test t =>
      NoMain ds ∧ Identifier t.name ∧ (∀ p ∈ (reading ds).placed, p.test.name ≠ t.name) ∧
        ((reading ds).implied → ∀ p ∈ (reading ds).placed, p.tcase ≠ (reading ds).tcase)
  | .mainPre => NoMain ds
  | .mainPost => .mainPost ∉ ds
  | .plain => True

instance (ds : List Directive) (d : Directive) : Decidable (Fits ds d) := by
  cases d <;> unfold Fits <;> infer_instance

/-- The specifications that `checkmk` takes. -/
def WellFormed (ds : List Directive) : Prop := Throughout Fits ds ∧ ∃ t, .test t ∈ ds

/-! ## the arrangement of the tests -/

/-- What fitting directives make of a reading. -/
structure Arranged (r : Reading) : Prop where
  /-- The tests of a suite stand together. -/
  suites : Grouped (r.placed.map Placed.suite)
  /-- The tests of a test case stand together. -/
  tcases : Grouped (r.placed.map Placed.tcase)
  /-- A test case belongs to one suite. -/
  suite_eq : ∀ p ∈ r.placed, ∀ q ∈ r.placed, p.tcase = q.tcase → p.suite = q.suite
  /-- No two tests have the same name. -/
  names : (r.placed.map fun p => p.test.name).Nodup
  /-- If there are tests in the current suite, the last test is. -/
  suite_last : r.suite ∈ r.placed.map Placed.suite →
    (r.placed.map Placed.suite).getLast? = some r.suite
  /-- If there are tests in the current test case, and it is not a new one that a
  suite directive has opened, the last test is. -/
  tcase_last : r.implied = false → r.tcase ∈ r.placed.map Placed.tcase →
    (r.placed.map Placed.tcase).getLast? = some r.tcase
  /-- The tests of such a test case are in the current suite. -/
  tcase_suite : r.implied = false → ∀ p ∈ r.placed, p.tcase = r.tcase → p.suite = r.suite

theorem arranged_nil : Arranged (reading []) where
  suites := grouped_nil
  tcases := grouped_nil
  suite_eq := by simp [reading]
  names := by simp [reading]
  suite_last := by simp [reading]
  tcase_last := by simp [reading]
  tcase_suite := by simp [reading]

/-- A test case that a fitting test joins or opens is in no other suite. -/
theorem Arranged.suite_of_fits {ds : List Directive} {t : Test} (h : Arranged (reading ds))
    (hfit : Fits ds (.test t)) (p : Placed) (hp : p ∈ (reading ds).placed)
    (he : p.tcase = (reading ds).tcase) : p.suite = (reading ds).suite := by
  cases hi : (reading ds).implied with
  | false => exact h.tcase_suite hi p hp he
  | true => exact absurd he (hfit.2.2.2 hi p hp)

theorem Arranged.step {ds : List Directive} {d : Directive} (h : Arranged (reading ds))
    (hfit : Fits ds d) : Arranged ((reading ds).step d) := by
  cases d with
  | suite name =>
      exact { h with
        suite_last := fun hmem => by
          obtain ⟨p, hp, rfl⟩ := List.mem_map.mp hmem
          exact absurd rfl (hfit.2 p hp)
        tcase_last := by simp [Reading.step]
        tcase_suite := by simp [Reading.step] }
  | tcase name =>
      exact { h with
        tcase_last := fun _ hmem => by
          obtain ⟨p, hp, rfl⟩ := List.mem_map.mp hmem
          exact absurd rfl (hfit.2 p hp)
        tcase_suite := fun _ p hp he => absurd he (hfit.2 p hp) }
  | test t =>
      have hsuite := h.suite_of_fits hfit
      obtain ⟨-, -, hname, himplied⟩ := hfit
      -- a test case that the test opens holds no tests, whichever directive opened it
      have hlast : (reading ds).tcase ∈ (reading ds).placed.map Placed.tcase →
          ((reading ds).placed.map Placed.tcase).getLast? = some (reading ds).tcase := by
        intro hmem
        cases hi : (reading ds).implied with
        | false => exact h.tcase_last hi hmem
        | true =>
            obtain ⟨p, hp, he⟩ := List.mem_map.mp hmem
            exact absurd he (himplied hi p hp)
      constructor
      · simpa [Reading.step] using h.suites.concat h.suite_last
      · simpa [Reading.step] using h.tcases.concat hlast
      · have hold := h.suite_eq
        simp only [Reading.step, List.mem_append, List.mem_singleton]
        grind
      · simp only [Reading.step, List.map_append, List.nodup_append, List.map_cons, List.map_nil]
        refine ⟨h.names, by simp, ?_⟩
        simpa using hname
      · simp [Reading.step]
      · simp [Reading.step]
      · simp only [Reading.step, List.mem_append, List.mem_singleton]
        grind
  | mainPre => exact h
  | mainPost => exact h
  | plain => exact h

/-- **Fitting directives arrange the tests in groups.** -/
theorem arranged_of_throughout {ds : List Directive} (h : Throughout Fits ds) :
    Arranged (reading ds) := by
  induction ds using List.reverseRecOn with
  | nil => exact arranged_nil
  | append_singleton ds d ih =>
      obtain ⟨hds, hd⟩ := throughout_concat.mp h
      rw [reading_concat]
      exact (ih hds).step hd

/-! ## suites, test cases and tests -/

/-- The suites with tests, in the order of their first tests. -/
def suitesOf (ps : List Placed) : List Text := (ps.map Placed.suite).eraseDups

/-- The test cases of a suite, in the order of their first tests. -/
def tcasesOf (ps : List Placed) (suite : Text) : List Text :=
  ((ps.filter fun p => p.suite = suite).map Placed.tcase).eraseDups

/-- The tests of a test case, in their order. -/
def testsOf (ps : List Placed) (tcase : Text) : List Test :=
  (ps.filter fun p => p.tcase = tcase).map Placed.test

/-- What `main()` has to build: suites, their test cases, and the tests of these. -/
abbrev Harness := List (Text × List (Text × List Test))

/-- The tests of a harness with their places, in the order in which they run. -/
def Harness.flatten (g : Harness) : List Placed :=
  g.flatMap fun s => s.2.flatMap fun tc => tc.2.map fun t => ⟨s.1, tc.1, t⟩

/-- The harness of a specification. -/
def harness (ps : List Placed) : Harness :=
  (suitesOf ps).map fun s => (s, (tcasesOf ps s).map fun tc => (tc, testsOf ps tc))

theorem suitesOf_concat (ps : List Placed) (p : Placed) :
    suitesOf (ps ++ [p]) =
      if p.suite ∈ ps.map Placed.suite then suitesOf ps else suitesOf ps ++ [p.suite] := by
  rw [suitesOf, List.map_append, List.map_singleton, eraseDups_concat, suitesOf]

theorem tcasesOf_concat_self (ps : List Placed) (p : Placed) :
    tcasesOf (ps ++ [p]) p.suite =
      if p.tcase ∈ tcasesOf ps p.suite then tcasesOf ps p.suite
      else tcasesOf ps p.suite ++ [p.tcase] := by
  simp only [tcasesOf, List.mem_eraseDups]
  rw [List.filter_append, List.filter_cons_of_pos (by simp), List.map_append, List.filter_nil,
    List.map_singleton, eraseDups_concat]

theorem tcasesOf_concat_of_ne (ps : List Placed) {p : Placed} {suite : Text}
    (h : p.suite ≠ suite) : tcasesOf (ps ++ [p]) suite = tcasesOf ps suite := by
  simp [tcasesOf, h]

theorem testsOf_concat_self (ps : List Placed) (p : Placed) :
    testsOf (ps ++ [p]) p.tcase = testsOf ps p.tcase ++ [p.test] := by
  simp [testsOf]

theorem testsOf_concat_of_ne (ps : List Placed) {p : Placed} {tcase : Text}
    (h : p.tcase ≠ tcase) : testsOf (ps ++ [p]) tcase = testsOf ps tcase := by
  simp [testsOf, h]

theorem mem_suitesOf {ps : List Placed} {suite : Text} :
    suite ∈ suitesOf ps ↔ ∃ p ∈ ps, p.suite = suite := by
  simp [suitesOf, List.mem_eraseDups]

theorem mem_tcasesOf {ps : List Placed} {suite tcase : Text} :
    tcase ∈ tcasesOf ps suite ↔ ∃ p ∈ ps, p.suite = suite ∧ p.tcase = tcase := by
  simp [tcasesOf, List.mem_eraseDups, and_assoc]

theorem tcasesOf_eq_nil {ps : List Placed} {suite : Text} :
    tcasesOf ps suite = [] ↔ ∀ p ∈ ps, p.suite ≠ suite := by
  rw [List.eq_nil_iff_forall_not_mem]
  simp [mem_tcasesOf]
  grind

theorem testsOf_eq_nil {ps : List Placed} {tcase : Text} :
    testsOf ps tcase = [] ↔ ∀ p ∈ ps, p.tcase ≠ tcase := by
  simp [testsOf]

/-- **A harness holds the tests of its specification, each where it belongs and
in the order of the input.** -/
theorem Arranged.flatten_harness {r : Reading} (h : Arranged r) :
    (harness r.placed).flatten = r.placed := by
  have htests : ∀ s tc, tc ∈ tcasesOf r.placed s →
      ((testsOf r.placed tc).map fun t => Placed.mk s tc t) =
        (r.placed.filter fun p => p.suite = s).filter fun p => p.tcase = tc := by
    intro s tc htc
    obtain ⟨q, hq, rfl, rfl⟩ := mem_tcasesOf.mp htc
    have hsame : ((r.placed.filter fun p => p.suite = q.suite).filter fun p => p.tcase = q.tcase) =
        r.placed.filter fun p => p.tcase = q.tcase := by
      rw [List.filter_filter]
      apply List.filter_congr
      intro p hp
      by_cases he : p.tcase = q.tcase <;> simp [he]
      exact h.suite_eq p hp q hq he
    rw [hsame, testsOf, List.map_map]
    conv_rhs => rw [← List.map_id (r.placed.filter fun p => p.tcase = q.tcase)]
    apply List.map_congr_left
    intro p hp
    obtain ⟨hp, he⟩ := List.mem_filter.mp hp
    have he : p.tcase = q.tcase := by simpa using he
    have hs := h.suite_eq p hp q hq he
    cases p
    simp_all
  have hcases : ∀ s, ((tcasesOf r.placed s).flatMap fun tc =>
      (testsOf r.placed tc).map fun t => Placed.mk s tc t) =
        r.placed.filter fun p => p.suite = s := by
    intro s
    rw [List.flatMap_congr (htests s)]
    apply flatMap_filter_eraseDups
    exact h.tcases.sublist (List.filter_sublist.map _)
  rw [Harness.flatten, harness, List.flatMap_map]
  simp only [List.flatMap_map, hcases]
  exact flatMap_filter_eraseDups h.suites

theorem nodup_suitesOf (ps : List Placed) : (suitesOf ps).Nodup := nodup_eraseDups _

/-- No test case is in two suites. -/
theorem Arranged.nodup_tcases {r : Reading} (h : Arranged r) :
    ((suitesOf r.placed).flatMap (tcasesOf r.placed)).Nodup := by
  rw [List.nodup_flatMap]
  refine ⟨fun s _ => nodup_eraseDups _, (nodup_suitesOf r.placed).imp ?_⟩
  intro s s' hne tc htc htc'
  obtain ⟨p, hp, rfl, rfl⟩ := mem_tcasesOf.mp htc
  obtain ⟨q, hq, rfl, he⟩ := mem_tcasesOf.mp htc'
  exact hne (h.suite_eq p hp q hq he.symm)

/-- A harness with the tests of a specification: it holds them in their order,
each in the suite and the test case that are current at its directive; suites
and test cases have different names, and none is empty. -/
structure Holds (g : Harness) (ds : List Directive) : Prop where
  tests : g.flatten = (reading ds).placed
  suites : (g.map Prod.fst).Nodup
  tcases : (g.flatMap fun s => s.2.map Prod.fst).Nodup
  nonempty : ∀ s ∈ g, s.2 ≠ [] ∧ ∀ tc ∈ s.2, tc.2 ≠ []

/-- **The harness of fitting directives.** -/
theorem Arranged.holds {ds : List Directive} (h : Arranged (reading ds)) :
    Holds (harness (reading ds).placed) ds := by
  constructor
  · exact h.flatten_harness
  · simpa [harness, Function.comp_def] using nodup_suitesOf _
  · simpa [harness, List.flatMap_map, Function.comp_def] using h.nodup_tcases
  · intro s hs
    obtain ⟨name, hname, rfl⟩ := List.mem_map.mp hs
    obtain ⟨p, hp, rfl⟩ := mem_suitesOf.mp hname
    refine ⟨?_, ?_⟩
    · have hne : tcasesOf (reading ds).placed p.suite ≠ [] := fun he =>
        tcasesOf_eq_nil.mp he p hp rfl
      simpa using hne
    · intro tc htc
      obtain ⟨n, hn, rfl⟩ := List.mem_map.mp htc
      obtain ⟨q, hq, -, rfl⟩ := mem_tcasesOf.mp hn
      exact fun he => testsOf_eq_nil.mp he q hq rfl

end LibCheck.Checkmk
