import LibCheck.Lockstep
import LibCheck.Nested

/-!
# LibCheck.Select

Which test cases a run calls.

* `Wanted` — the documented filter: a test case is wanted by its suite's name,
  its own name and the words of its tag string.
* `selection` — the wanted test cases, suite by suite.
* `srunnerRunTagged_selection` — a run calls `srunner_run_tcase` on exactly
  these, in this order; where it is stopped, on a part of them from the
  beginning.

On the abstract machine the filters of the code only look at the state, and
evaluate to the filter (`suiteSelected_apply`, `tcaseSelected_apply`).
-/

namespace LibCheck

open Prog

/-! ## words -/

/-- The members of `splitOn`: parts of the list without the separator that
extend from a separator, or the beginning, to a separator, or the end. -/
theorem mem_splitOn [DecidableEq α] {a : α} {w xs : List α} :
    w ∈ xs.splitOn a ↔ a ∉ w ∧ ∃ pre post, xs = pre ++ w ++ post ∧
      (pre = [] ∨ ∃ p, pre = p ++ [a]) ∧ (post = [] ∨ ∃ q, post = a :: q) := by
  have hsplit : ∀ l r : List α, (l ++ a :: r).splitOn a = l.splitOn a ++ r.splitOn a :=
    fun l r => List.splitOn_append_cons_self ..
  have hself : ∀ l : List α, a ∉ l → l.splitOn a = [l] := fun l hl =>
    List.splitOn_eq_singleton hl
  constructor
  · induction hn : xs.length using Nat.strongRecOn generalizing xs with
    | ind n ih =>
        intro hw
        by_cases ha : a ∈ xs
        · obtain ⟨l, r, rfl, hl⟩ := List.eq_append_cons_of_mem ha
          rw [hsplit, hself l hl, List.singleton_append, List.mem_cons] at hw
          rcases hw with rfl | hw
          · exact ⟨hl, [], a :: r, rfl, .inl rfl, .inr ⟨r, rfl⟩⟩
          · rw [List.length_append, List.length_cons] at hn
            obtain ⟨haw, pre, post, rfl, hpre, hpost⟩ := ih r.length (by omega) rfl hw
            refine ⟨haw, l ++ a :: pre, post, by simp only [List.append_assoc, List.cons_append],
              .inr ?_, hpost⟩
            rcases hpre with rfl | ⟨p, rfl⟩
            · exact ⟨l, rfl⟩
            · exact ⟨l ++ a :: p, by simp only [List.append_assoc, List.cons_append]⟩
        · rw [hself xs ha, List.mem_singleton] at hw
          subst hw
          exact ⟨ha, [], [], (List.append_nil _).symm, .inl rfl, .inl rfl⟩
  · rintro ⟨ha, pre, post, rfl, rfl | ⟨p, rfl⟩, rfl | ⟨q, rfl⟩⟩
    all_goals
      simp [List.append_assoc, hsplit, hself w ha]

/-- A word of a tag string: a maximal run of bytes other than the space. -/
def IsWord (w tags : CStr) : Prop :=
  w ≠ .empty ∧ 32 ∉ w.bytes ∧ ∃ pre post, tags.bytes = pre ++ w.bytes ++ post ∧
    (pre = [] ∨ ∃ p, pre = p ++ [32]) ∧ (post = [] ∨ ∃ q, post = 32 :: q)

/-- The tags of a tag string are its words. -/
theorem mem_tagStringToList {w tags : CStr} :
    w ∈ tagStringToList (some tags) ↔ IsWord w tags := by
  have hempty : w ≠ .empty ↔ w.bytes ≠ [] :=
    not_congr ⟨congrArg CStr.bytes, fun h => CStr.ext_bytes h⟩
  have hbytes : w ∈ tagStringToList (some tags) ↔ w.bytes ∈ strtok tags.bytes := by
    simp only [tagStringToList, List.mem_map]
    constructor
    · rintro ⟨v, hv, rfl⟩
      obtain ⟨-, pre, post, heq, -⟩ := mem_splitOn.mp (List.mem_filter.mp hv).1
      have hnul : (0 : UInt8) ∉ v := by
        intro h0
        refine tags.nul_free ?_
        rw [heq]
        exact List.mem_append_left _ (List.mem_append_right _ h0)
      rw [show (CStr.ofBuf v).bytes = v from congrArg CStr.bytes (CStr.ofBuf_bytes ⟨v, hnul⟩)]
      exact hv
    · exact fun hw => ⟨w.bytes, hw, CStr.ofBuf_bytes w⟩
  rw [hbytes, strtok, List.mem_filter, mem_splitOn, IsWord, hempty, decide_eq_true_eq, and_comm]

instance (w tags : CStr) : Decidable (IsWord w tags) := decidable_of_iff _ mem_tagStringToList

/-- Two tag strings have a word in common. -/
def ShareTag (tags check : CStr) : Prop := ∃ w, IsWord w tags ∧ IsWord w check

theorem shareTag_iff {tags check : CStr} :
    (∃ w ∈ tagStringToList (some tags), w ∈ tagStringToList (some check)) ↔
      ShareTag tags check := by
  simp only [mem_tagStringToList, ShareTag]

instance (tags check : CStr) : Decidable (ShareTag tags check) := decidable_of_iff _ shareTag_iff

/-! ## the filter -/

/-- The documented filter, for a test case of the given name and tags in a
suite of the given name.  An argument that is absent does not filter. -/
structure Wanted (a : RunArgs) (suite tcname : CStr) (tags : Option CStr) : Prop where
  sname : ∀ n, a.sname = some n → suite = n
  tcname : ∀ n, a.tcname = some n → tcname = n
  includeTags : ∀ check, a.includeTags = some check → ∃ t, tags = some t ∧ ShareTag t check
  excludeTags : ∀ check, a.excludeTags = some check → ¬ ∃ t, tags = some t ∧ ShareTag t check

/-- The filter, argument by argument. -/
theorem wanted_iff {a : RunArgs} {suite tcname : CStr} {tags : Option CStr} :
    ((a.sname = none ∨ a.sname = some suite) ∧ (a.tcname = none ∨ a.tcname = some tcname) ∧
      (∀ check ∈ a.includeTags, ∃ t ∈ tags, ShareTag t check) ∧
      ∀ check ∈ a.excludeTags, ¬ ∃ t ∈ tags, ShareTag t check) ↔
      Wanted a suite tcname tags := by
  have hname : ∀ (o : Option CStr) (n : CStr),
      (o = none ∨ o = some n) ↔ ∀ m, o = some m → n = m := by
    intro o n
    cases o with
    | none => simp
    | some m => simp [eq_comm]
  rw [hname, hname]
  exact ⟨fun ⟨h1, h2, h3, h4⟩ => ⟨h1, h2, h3, h4⟩, fun h => ⟨h.1, h.2, h.3, h.4⟩⟩

instance (a : RunArgs) (suite tcname : CStr) (tags : Option CStr) :
    Decidable (Wanted a suite tcname tags) := decidable_of_iff _ wanted_iff

/-- The test cases that are wanted, suite by suite. -/
def selection {L : Type → Type} [Lists L] {ν : Type} (a : RunArgs) (heap : Heap L ν)
    (tags : TCaseId → Option CStr) : List TCaseId :=
  (Lists.elems (heap.lists .slst)).flatMap fun s =>
    (Lists.elems (heap.lists (.tclst s))).filter fun tc =>
      Wanted a (heap.suiteName s) (heap.tcName tc) (tags tc)

/-! ## the filters of the code -/

section

variable {β ν : Type} (x : Ctx)

theorem tcaseMatchingTag_apply (tc : TCaseId) (a : TagArg) (s : St List β ν) :
    tcaseMatchingTag x tc a s =
      .ok (decide (∃ w ∈ s.heap.lists (.tags tc), w ∈ s.heap.lists (.tagLst a))) s := by
  have hinner : ∀ t : CStr, forList x (.tags tc)
      (fun u => pure (if u = t then some () else none)) s =
        (.ok ((s.heap.lists (.tags tc)).findSome? fun u => if u = t then some () else none) s :
          EStateM.Result Stop (St List β ν) (Option Unit)) :=
    fun t => findSomeM_eq fun _ _ => rfl
  have houter : forList x (.tagLst a) (fun t => forList x (.tags tc) fun u =>
      (pure (if u = t then some () else none) : RunM List β ν (Option Unit))) s =
        .ok ((s.heap.lists (.tagLst a)).findSome? fun t =>
          (s.heap.lists (.tags tc)).findSome? fun u => if u = t then some () else none) s :=
    findSomeM_eq fun t _ => hinner t
  rw [tcaseMatchingTag, bind_of_ok _ houter, pure_apply]
  congr 1
  rw [Bool.eq_iff_iff, decide_eq_true_eq, List.findSome?_isSome_iff]
  simp only [List.findSome?_isSome_iff]
  constructor
  · rintro ⟨t, ht, u, hu, h⟩
    by_cases hut : u = t
    · exact ⟨u, hu, hut ▸ ht⟩
    · rw [if_neg hut] at h
      cases h
  · rintro ⟨w, hw, hw'⟩
    exact ⟨w, hw', w, hw, by rw [if_pos rfl]; rfl⟩

theorem suiteTcase_apply (su : SuiteId) (tcname : CStr) (s : St List β ν) :
    suiteTcase x su tcname s =
      .ok (decide (∃ tc ∈ s.heap.lists (.tclst su), s.heap.tcName tc = tcname)) s := by
  have hwalk : forList x (.tclst su) (fun tc => do
      let name ← read fun st => st.heap.tcName tc
      (pure (if tcname = name then some () else none) : RunM List β ν (Option Unit))) s =
        .ok ((s.heap.lists (.tclst su)).findSome? fun tc =>
          if tcname = s.heap.tcName tc then some () else none) s :=
    findSomeM_eq fun _ _ => rfl
  rw [suiteTcase, bind_of_ok _ hwalk, pure_apply]
  congr 1
  rw [Bool.eq_iff_iff, decide_eq_true_eq, List.findSome?_isSome_iff]
  refine exists_congr fun tc => and_congr_right fun _ => ?_
  by_cases h : tcname = s.heap.tcName tc
  · simp [h]
  · simp [h, Ne.symm h]

/-- The suites of a run are those of the wanted name with a test case of the
wanted name. -/
theorem suiteSelected_apply (sname tcname : Option CStr) (su : SuiteId) (s : St List β ν) :
    suiteSelected x sname tcname su s =
      .ok (decide ((sname = none ∨ sname = some (s.heap.suiteName su)) ∧
        ∀ n ∈ tcname, ∃ tc ∈ s.heap.lists (.tclst su), s.heap.tcName tc = n)) s := by
  unfold suiteSelected
  rw [read_bind]
  by_cases hn : sname = none ∨ sname = some (s.heap.suiteName su)
  · rw [if_neg fun h => hn.elim h.1 h.2]
    cases tcname with
    | none => simp [hn]
    | some n => simp [hn, suiteTcase_apply]
  · rw [if_pos ⟨fun h => hn (.inl h), fun h => hn (.inr h)⟩]
    simp [hn]

/-- The test cases of a run, among those of a suite, are those of the wanted
name and tags. -/
theorem tcaseSelected_apply (a : RunArgs) (tc : TCaseId) (s : St List β ν) :
    tcaseSelected x a.tcname a.includeTags a.excludeTags tc s =
      .ok (decide ((a.tcname = none ∨ a.tcname = some (s.heap.tcName tc)) ∧
        (a.includeTags ≠ none →
          ∃ w ∈ s.heap.lists (.tags tc), w ∈ s.heap.lists (.tagLst .includeTags)) ∧
        (a.excludeTags ≠ none →
          ¬ ∃ w ∈ s.heap.lists (.tags tc), w ∈ s.heap.lists (.tagLst .excludeTags)))) s := by
  have hmatch : ∀ (arg : Option CStr) (g : TagArg) (b : Bool),
      (if arg ≠ none then tcaseMatchingTag x tc g else pure b : RunM List β ν Bool) s =
        .ok (if arg ≠ none then
          decide (∃ w ∈ s.heap.lists (.tags tc), w ∈ s.heap.lists (.tagLst g)) else b) s := by
    intro arg g b
    by_cases h : arg ≠ none
    · rw [if_pos h, if_pos h, tcaseMatchingTag_apply]
    · rw [if_neg h, if_neg h, pure_apply]
  rw [tcaseSelected, read_bind]
  by_cases hn : a.tcname = none ∨ a.tcname = some (s.heap.tcName tc)
  · rw [if_neg fun h => hn.elim h.1 h.2, bind_of_ok _ (hmatch a.includeTags .includeTags true)]
    by_cases hi : a.includeTags ≠ none → ∃ w ∈ s.heap.lists (.tags tc),
        w ∈ s.heap.lists (.tagLst .includeTags)
    · have hb : (if a.includeTags ≠ none then decide (∃ w ∈ s.heap.lists (.tags tc),
          w ∈ s.heap.lists (.tagLst .includeTags)) else true) = true := by
        by_cases h : a.includeTags ≠ none
        · rw [if_pos h]
          exact decide_eq_true (hi h)
        · rw [if_neg h]
      rw [hb, if_pos rfl, bind_of_ok _ (hmatch a.excludeTags .excludeTags false), pure_apply]
      congr 1
      rw [Bool.eq_iff_iff, decide_eq_true_eq]
      by_cases h : a.excludeTags ≠ none
      · rw [if_pos h, Bool.not_eq_true', decide_eq_false_iff_not]
        exact ⟨fun hno => ⟨hn, hi, fun _ => hno⟩, fun hall => hall.2.2 h⟩
      · rw [if_neg h]
        exact ⟨fun _ => ⟨hn, hi, fun h' => absurd h' h⟩, fun _ => rfl⟩
    · obtain ⟨h, hno⟩ := Classical.not_imp.mp hi
      rw [if_pos h, if_neg (by simpa using hno), pure_apply]
      simp [hn, hi]
  · rw [if_pos ⟨fun h => hn (.inl h), fun h => hn (.inr h)⟩]
    simp [hn]

end

/-! ## the calls of a run -/

/-- The call of a test case. -/
def Obs.tcase? : Obs → Option TCaseId
  | .tcase tc => some tc
  | _ => none

/-- The test cases that were called, by the run at nesting level `lvl`. -/
def tcases (lvl : Nat) (hist : List (Nat × Obs)) : List TCaseId := shown Obs.tcase? lvl hist

section

variable {x : Ctx}

/-- The calls of test cases, on the abstract machine: exactly `os`, unless the
process is stopped, and nothing happens to the heap that `I` forbids. -/
abbrev Calls (x : Ctx) (I : Heap List NestedRun → Prop) (os : List TCaseId)
    (y : RunM List SendMsg NestedRun α) : Prop :=
  Appends (fun s => I s.heap) Stop.Real (fun s => tcases x.lvl s.proc.hist) os y

/-- A part of a run that keeps `I` and calls no test case. -/
theorem calls_nil {I : Heap List NestedRun → Prop} {y : RunM List SendMsg NestedRun α}
    (hI : Maintains (fun s => I s.heap) (fun _ _ => True) y)
    (hv : ∀ c, MsgsInv.Holds (fun m => tcases x.lvl m.2.2 = c)
      (fun m => tcases x.lvl m.2.2 = c) y) :
    Calls x I [] y :=
  Appends.nil_of_maintains fun c => (hI.and (hv c)).weaken fun _ _ h => ⟨h.2.2, h.2.1⟩

theorem logClosed_tcases (x : Ctx) (c : List TCaseId) :
    LogClosed x (runNested x) fun {α} (y : RunM List SendMsg NestedRun α) =>
      MsgsInv.Holds (fun m => tcases x.lvl m.2.2 = c) (fun m => tcases x.lvl m.2.2 = c) y :=
  (msgsInv_shown x Obs.tcase? c).logClosed (fun o ho => by cases o <;> first | rfl | cases ho)
    (runNested_shown x Obs.tcase? c)

theorem caseClosed_heap (x : Ctx) (I : Heap List NestedRun → Prop) :
    CaseClosed x (runNested x) fun {α} (y : RunM List SendMsg NestedRun α) =>
      Maintains (fun s => I s.heap) (fun _ _ => True) y :=
  caseClosed_memory (I := fun m => I m.1) (keeps_runNested x)
    (fun _ _ => Maintains.update fun _ hs => hs) (fun _ _ _ _ hs => hs)

/-- `srunner_run_tcase` is one call. -/
theorem calls_srunnerRunTcase (I : Heap List NestedRun → Prop) (tc : TCaseId) :
    Calls x I [tc] (srunnerRunTcase x (runNested x) tc) := by
  have hrest : Calls x I [] (runTcase x (runNested x) tc) :=
    calls_nil ((caseClosed_heap x I).steps.runTcase tc) fun c =>
      (logClosed_tcases x c).steps.runTcase tc
  have hcall : Calls x I [tc] (update (St.onProc (Proc.observe x.lvl (.tcase tc)))) :=
    Appends.update (fun _ hs => hs) fun s => shown_append Obs.tcase? x.lvl (.tcase tc) s.proc.hist
  have hnow : Calls x I [] (update fun s => { s with now := ⟨s.now.tcrun + 1, 0⟩ }) :=
    Appends.update (fun _ hs => hs) fun s => (List.append_nil _).symm
  exact hnow.bind fun _ => hcall.bind fun _ => hrest

/-- A loop over a list of the heap that is never left early. -/
theorem calls_forList {H : Heap List NestedRun} {r : LRef} {g : r.Elem NestedRun → List TCaseId}
    {body : r.Elem NestedRun → RunM List SendMsg NestedRun (Option Unit)}
    (h : ∀ f ∈ H.lists r, Calls x (· = H) (g f) (body f))
    (hnone : ∀ f s b s', body f s = .ok b s' → b = none) :
    Calls x (· = H) ((H.lists r).flatMap g) (forList x r body) := by
  intro s hs
  have hwalk := Appends.findSomeM h hnone s hs
  have hlist : forList x r body s = (H.lists r).findSomeM? body s := by
    show (s.heap.lists r).findSomeM? body s = _
    rw [hs]
  rw [hlist]
  exact hwalk

/-- The heap holds what the filters look at: the tag lists of the run and of
the test cases. -/
structure Tagged (a : RunArgs) (tags : TCaseId → Option CStr) (H : Heap List NestedRun) : Prop where
  includeTags : H.lists (.tagLst .includeTags) = tagStringToList a.includeTags
  excludeTags : H.lists (.tagLst .excludeTags) = tagStringToList a.excludeTags
  tags : ∀ tc, H.lists (.tags tc) = tagStringToList (tags tc)

theorem exists_mem_tagStringToList {t : Option CStr} {check : CStr} :
    (∃ w ∈ tagStringToList t, w ∈ tagStringToList (some check)) ↔ ∃ u ∈ t, ShareTag u check := by
  cases t with
  | none => simp [tagStringToList]
  | some u =>
      rw [shareTag_iff]
      simp

/-- What the filters of the code select is what is wanted. -/
theorem wanted_iff_selected {a : RunArgs} {tags : TCaseId → Option CStr}
    {H : Heap List NestedRun} (hH : Tagged a tags H) (su : SuiteId) {tc : TCaseId}
    (htc : tc ∈ H.lists (.tclst su)) :
    Wanted a (H.suiteName su) (H.tcName tc) (tags tc) ↔
      ((a.sname = none ∨ a.sname = some (H.suiteName su)) ∧
        ∀ n ∈ a.tcname, ∃ tc ∈ H.lists (.tclst su), H.tcName tc = n) ∧
      ((a.tcname = none ∨ a.tcname = some (H.tcName tc)) ∧
        (a.includeTags ≠ none →
          ∃ w ∈ H.lists (.tags tc), w ∈ H.lists (.tagLst .includeTags)) ∧
        (a.excludeTags ≠ none →
          ¬ ∃ w ∈ H.lists (.tags tc), w ∈ H.lists (.tagLst .excludeTags))) := by
  have htag : ∀ (o : Option CStr) (p : Prop → Prop),
      (o ≠ none → p (∃ w ∈ tagStringToList (tags tc), w ∈ tagStringToList o)) ↔
        ∀ check ∈ o, p (∃ t ∈ tags tc, ShareTag t check) := by
    intro o p
    cases o with
    | none => simp
    | some check =>
        rw [exists_mem_tagStringToList]
        simp
  have hsuite : (a.tcname = none ∨ a.tcname = some (H.tcName tc)) →
      ∀ n ∈ a.tcname, ∃ tc ∈ H.lists (.tclst su), H.tcName tc = n := by
    rintro (h | h) n hn
    · rw [h] at hn
      cases hn
    · rw [h] at hn
      exact ⟨tc, htc, Option.some.inj hn⟩
  rw [hH.includeTags, hH.excludeTags, hH.tags, htag a.includeTags fun p => p,
    htag a.excludeTags Not, ← wanted_iff]
  exact ⟨fun ⟨h1, h2, h3, h4⟩ => ⟨⟨h1, hsuite h2⟩, h2, h3, h4⟩,
    fun ⟨⟨h1, _⟩, h2, h3, h4⟩ => ⟨h1, h2, h3, h4⟩⟩

/-- The loop over the test cases of a suite is not left early. -/
theorem runSelected_none {a : RunArgs} {tc : TCaseId} {s s' : St List SendMsg NestedRun}
    {b : Option Unit}
    (h : (do
      if ← tcaseSelected x a.tcname a.includeTags a.excludeTags tc then do
        srunnerRunTcase x (runNested x) tc
        pure (none : Option Unit)
      else pure none : RunM List SendMsg NestedRun (Option Unit)) s = .ok b s') : b = none := by
  obtain ⟨sel, _, -, h⟩ := bind_eq_ok.mp h
  cases sel with
  | true =>
      obtain ⟨_, _, -, h⟩ := bind_eq_ok.mp h
      cases h
      rfl
  | false =>
      cases h
      rfl

theorem calls_iterateSuite {a : RunArgs} {tags : TCaseId → Option CStr}
    {H : Heap List NestedRun} (hH : Tagged a tags H) (su : SuiteId) :
    Calls x (· = H)
      ((H.lists (.tclst su)).filter fun tc => Wanted a (H.suiteName su) (H.tcName tc) (tags tc))
      (iterateSuite x (runNested x) a su) := by
  have hsel := fun (s : St List SendMsg NestedRun) (hs : s.heap = H) =>
    hs ▸ suiteSelected_apply x a.sname a.tcname su s
  refine Appends.bind_of_eq hsel ?_
  by_cases hsu : (a.sname = none ∨ a.sname = some (H.suiteName su)) ∧
      ∀ n ∈ a.tcname, ∃ tc ∈ H.lists (.tclst su), H.tcName tc = n
  · rw [if_pos (decide_eq_true hsu)]
    have hevt : ∀ evt, Calls x (· = H) [] (do
        let name ← read fun st => st.heap.suiteName su
        srunnerSendEvt x (.suite su name) evt : RunM List SendMsg NestedRun Unit) := fun evt =>
      calls_nil (Maintains.bind (Maintains.read _) fun _ =>
          (caseClosed_heap x (· = H)).event _ _)
        fun c => Maintains.bind (Maintains.read _) fun _ => (logClosed_tcases x c).event _ _
    have hbody : ∀ tc ∈ H.lists (.tclst su), Calls x (· = H)
        (if Wanted a (H.suiteName su) (H.tcName tc) (tags tc) then [tc] else []) (do
          if ← tcaseSelected x a.tcname a.includeTags a.excludeTags tc then do
            srunnerRunTcase x (runNested x) tc
            pure (none : Option Unit)
          else pure none) := by
      intro tc htc
      have hsel := fun (s : St List SendMsg NestedRun) (hs : s.heap = H) =>
        hs ▸ tcaseSelected_apply x a tc s
      refine Appends.bind_of_eq hsel ?_
      by_cases hw : Wanted a (H.suiteName su) (H.tcName tc) (tags tc)
      · rw [if_pos hw, if_pos (decide_eq_true ((wanted_iff_selected hH su htc).mp hw).2)]
        exact (calls_srunnerRunTcase (· = H) tc).bind fun _ => Appends.pure none
      · rw [if_neg hw, if_neg fun h => hw ((wanted_iff_selected hH su htc).mpr
          ⟨hsu, of_decide_eq_true h⟩)]
        exact Appends.pure _
    have hloop := calls_forList hbody fun _ _ _ _ h => runSelected_none h
    rw [flatMap_ite_singleton (fun tc => Wanted a (H.suiteName su) (H.tcName tc) (tags tc))
      fun tc => tc, List.map_id'] at hloop
    have hall := (hevt .startS).bind fun _ => hloop.bind fun _ => hevt .endS
    rw [List.nil_append, List.append_nil] at hall
    exact hall
  · rw [if_neg fun h => hsu (of_decide_eq_true h)]
    have hnil : ((H.lists (.tclst su)).filter fun tc =>
        Wanted a (H.suiteName su) (H.tcName tc) (tags tc)) = [] := by
      refine List.filter_eq_nil_iff.mpr fun tc htc hw => hsu ?_
      exact ((wanted_iff_selected hH su htc).mp (of_decide_eq_true hw)).1
    rw [hnil]
    exact Appends.pure ()

section

variable {L L' : Type → Type} [Lists L] [Lists L'] {H : Heap L NestedRun}

/-- The heaps only differ in the lists of loggers and of tags of the run. -/
def SameCases (H : Heap L NestedRun) (K : Heap L' NestedRun) : Prop :=
  K.suiteName = H.suiteName ∧ K.tcName = H.tcName ∧
    ∀ r, r ≠ .loglst → (∀ g, r ≠ .tagLst g) → Lists.elems (K.lists r) = Lists.elems (H.lists r)

theorem SameCases.setList {K : Heap List NestedRun} (h : SameCases H K) (r : LRef)
    (l : List (r.Elem NestedRun)) (hr : r = .loglst ∨ ∃ g, r = .tagLst g) :
    SameCases H ({ K with lists := Function.update K.lists r l } : Heap List NestedRun) := by
  refine ⟨h.1, h.2.1, fun q hq hq' => ?_⟩
  have hne : q ≠ r := by
    rintro rfl
    rcases hr with hr | ⟨g, hr⟩
    · exact hq hr
    · exact hq' g hr
  show Function.update K.lists r l q = Lists.elems (H.lists q)
  rw [Function.update_of_ne hne]
  exact h.2.2 q hq hq'

/-- The selection only depends on the suites and test cases. -/
theorem SameCases.selection {K : Heap L' NestedRun} (h : SameCases H K) (a : RunArgs)
    (tags : TCaseId → Option CStr) : selection a K tags = selection a H tags := by
  obtain ⟨hsuite, htc, hlists⟩ := h
  have hslst := hlists .slst (fun he => nomatch he) (fun _ he => nomatch he)
  have htclst := fun su => hlists (.tclst su) (fun he => nomatch he) (fun _ he => nomatch he)
  simp only [LibCheck.selection, hslst, htclst, hsuite, htc]

theorem SameCases.loadTags {s : St List SendMsg NestedRun} (h : SameCases H s.heap) (a : RunArgs) :
    SameCases H (loadTags a s).heap :=
  (h.setList (.tagLst .includeTags) _ (.inr ⟨_, rfl⟩)).setList (.tagLst .excludeTags) _
    (.inr ⟨_, rfl⟩)

theorem SameCases.freeTags {s : St List SendMsg NestedRun} (h : SameCases H s.heap) :
    SameCases H (freeTags s).heap :=
  (h.setList (.tagLst .includeTags) _ (.inr ⟨_, rfl⟩)).setList (.tagLst .excludeTags) _
    (.inr ⟨_, rfl⟩)

end

/-- The filters find their tag lists loaded. -/
theorem tagged_loadTags {a : RunArgs} {tags : TCaseId → Option CStr}
    {s : St List SendMsg NestedRun}
    (htags : ∀ tc, s.heap.lists (.tags tc) = tagStringToList (tags tc)) :
    Tagged a tags (loadTags a s).heap where
  includeTags := by
    rw [loadTags, St.lists_setList_of_ne (by decide), St.lists_setList_self, ofElems_list]
  excludeTags := by rw [loadTags, St.lists_setList_self, ofElems_list]
  tags tc := (lists_loadTags (r := .tags tc) (fun _ he => nomatch he) a s).trans (htags tc)

theorem calls_srunnerIterateSuites {a : RunArgs} {tags : TCaseId → Option CStr}
    {H : Heap List NestedRun} (htags : ∀ tc, H.lists (.tags tc) = tagStringToList (tags tc)) :
    Calls x (SameCases H) (selection a H tags) (srunnerIterateSuites x (runNested x) a) := by
  intro s hs
  have hload : SameCases H (loadTags a s).heap := hs.loadTags a
  have hfree : ∀ s' : St List SendMsg NestedRun, s'.heap = (loadTags a s).heap →
      SameCases H (freeTags s').heap := by
    intro s' hs'
    have hsame : SameCases H s'.heap := hs' ▸ hload
    exact hsame.freeTags
  have htagged : Tagged a tags (loadTags a s).heap :=
    tagged_loadTags fun tc => (hs.2.2 (.tags tc) (fun he => nomatch he)
      (fun _ he => nomatch he)).trans (htags tc)
  have hloop := calls_forList (r := .slst) (fun su _ =>
    (calls_iterateSuite (x := x) htagged su).bind fun _ => Appends.pure (none : Option Unit)) (by
      intro su s b s' hb
      obtain ⟨_, _, -, hb⟩ := bind_eq_ok.mp hb
      cases hb
      rfl) (loadTags a s) rfl
  simp only [List.append_nil] at hloop
  rw [← hload.selection a tags, srunnerIterateSuites_apply]
  cases hres : forList x .slst (fun su => do
      iterateSuite x (runNested x) a su
      pure (none : Option Unit)) (loadTags a s) with
  | ok b s' =>
      rw [hres] at hloop
      exact ⟨hfree s' hloop.1, hloop.2⟩
  | error e s' =>
      rw [hres] at hloop
      exact hloop

theorem runClosed_sameCases (x : Ctx) (H : Heap List NestedRun) :
    RunClosed x (runNested x) fun {α} (y : RunM List SendMsg NestedRun α) =>
      Maintains (fun s => SameCases H s.heap) (fun _ _ => True) y :=
  runClosed_memory (I := fun m => SameCases H m.1) (caseClosed_heap x (SameCases H))
    (fun _ _ _ r l hs hr => hs.setList r l hr) (fun _ _ _ _ hs => hs)

theorem calls_setupPipe (H : Heap List NestedRun) : Calls x (SameCases H) [] setupPipe :=
  calls_nil (keeps_setupPipe.maintains (I := fun m => SameCases H m.1)) fun _ =>
    Maintains.bind (Maintains.read _) fun _ => Maintains.ite (Maintains.update fun _ hs => hs)
      (Maintains.bind (Maintains.read _) fun _ => Maintains.ite (Maintains.update fun _ hs => hs)
        (Maintains.throw fun _ hs => ⟨hs, trivial⟩))

theorem calls_teardownPipe (H : Heap List NestedRun) : Calls x (SameCases H) [] teardownPipe :=
  calls_nil (keeps_teardownPipe.maintains (I := fun m => SameCases H m.1)) fun _ =>
    Maintains.bind (Maintains.read _) fun _ => Maintains.ite (Maintains.update fun _ hs => hs)
      (Maintains.bind (Maintains.read _) fun _ => Maintains.ite (Maintains.update fun _ hs => hs)
        (Maintains.throw fun _ hs => ⟨hs, trivial⟩))

/-- A run of the abstract machine calls exactly the selection. -/
theorem calls_srunnerRunTagged {a : RunArgs} {tags : TCaseId → Option CStr}
    {H : Heap List NestedRun} (htags : ∀ tc, H.lists (.tags tc) = tagStringToList (tags tc)) :
    Calls x (SameCases H) (selection (effectiveArgs x.env a) H tags)
      (srunnerRunTagged x (runNested x) a) := by
  have hI := runClosed_sameCases x H
  have hv := logClosed_tcases x
  have hproc : ∀ f : Proc SendMsg → Proc SendMsg, (∀ p, (f p).hist = p.hist) →
      Calls x (SameCases H) [] (update (St.onProc f)) := by
    intro f hf
    refine Appends.update (fun _ hs => hs) fun s => ?_
    show tcases x.lvl (f s.proc).hist = _
    rw [hf, List.append_nil]
  have hevt : ∀ obj evt, Calls x (SameCases H) [] (srunnerSendEvt x obj evt) := fun obj evt =>
    calls_nil (hI.event obj evt) fun c => (hv c).event obj evt
  have hinit : Calls x (SameCases H) [] (srunnerInitLogging x a.printMode) :=
    calls_nil (hI.srunnerInitLogging _) fun c => (hv c).srunnerInitLogging _
  have hend : Calls x (SameCases H) [] (srunnerEndLogging x) :=
    calls_nil hI.srunnerEndLogging fun c => (hv c).srunnerEndLogging
  have hread : Calls x (SameCases H) [] (srunnerForkStatus x) :=
    calls_nil (Maintains.read _) fun _ => Maintains.read _
  have hrun := (hproc (fun p => { p with
      oldSigs := p.sigs, sigs := ⟨.sigHandler, .sigHandler, .sigHandler⟩ }) fun _ => rfl).bind
    fun _ => (hread.bind fun fstat => (hproc (fun p => { p with fstat := fstat }) fun _ => rfl).bind
      fun _ => (calls_setupPipe H).bind fun _ => hinit.bind fun _ => hevt .null .startSr).bind
    fun _ => (calls_srunnerIterateSuites (a := effectiveArgs x.env a) htags).bind
    fun _ => ((hevt .null .endSr).bind fun _ => hend.bind fun _ => (calls_teardownPipe H).bind
      fun _ => hproc (fun p => { p with fstat := .fork }) fun _ => rfl).bind
    fun _ => hproc (fun p => { p with sigs := p.oldSigs }) fun _ => rfl
  simp only [List.nil_append, List.append_nil] at hrun
  exact hrun

end

/-! ## the code -/

/-- Three test cases, one of them with the tags `red` and `blue`. -/
def Sample.tagged : List (Sample.Case NestedRun) :=
  [⟨fun _ => [], [], none⟩, ⟨fun _ => [], [], some (.lit " blue  red")⟩,
    ⟨fun _ => [], [], some (.lit "infrared")⟩]

theorem Sample.elems_tags (cases : List (Sample.Case ν)) (fstat : ForkStatus) (tc : TCaseId) :
    ((Sample.start cases fstat).heap.lists (.tags tc)).elems =
      tagStringToList (cases[tc]?.bind Sample.Case.tags) := elems_ofElems _

end LibCheck
