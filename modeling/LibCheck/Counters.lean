import LibCheck.Closed
import LibCheck.Lockstep
import Mathlib.Data.List.Basic

/-!
# LibCheck.Counters

The counters of a runner and its result list never disagree, in any state
that a program reaches by creating a runner, adding suites and running it, and
the accessors that size an array from the counters and fill it from the list
therefore fill it exactly.
-/

namespace LibCheck

open Prog

/-! ## the invariant -/

/-- The counters count the list, and every result is classified. -/
structure Counted (stats : TestStats) (results : List TestResult) : Prop where
  classified : ∀ tr ∈ results, tr.Classified
  nChecked : stats.nChecked = results.length
  nFailed : stats.nFailed = results.countP fun tr => tr.rtype = .failure
  nErrors : stats.nErrors = results.countP fun tr => tr.rtype = .error

theorem counted_nil : Counted ⟨0, 0, 0⟩ [] :=
  ⟨fun _ h => absurd h List.not_mem_nil, rfl, rfl, rfl⟩

/-- `srunner_add_failure` keeps the counters in step. -/
theorem Counted.add {stats : TestStats} {results : List TestResult} {tr : TestResult}
    (h : Counted stats results) (htr : tr.Classified) :
    Counted
      { nChecked := stats.nChecked + 1
        nFailed := stats.nFailed + if tr.rtype = .failure then 1 else 0
        nErrors := stats.nErrors + if tr.rtype = .error then 1 else 0 }
      (results ++ [tr]) where
  classified q hq := by
    rcases List.mem_append.mp hq with hq | hq
    · exact h.classified q hq
    · rw [List.mem_singleton] at hq
      rw [hq]
      exact htr
  nChecked := by
    rw [List.length_append, List.length_singleton]
    exact congrArg (· + 1) h.nChecked
  nFailed := by
    rw [List.countP_append, List.countP_singleton, ← h.nFailed]
    simp only [decide_eq_true_eq]
  nErrors := by
    rw [List.countP_append, List.countP_singleton, ← h.nErrors]
    simp only [decide_eq_true_eq]

/-- What the two counters of unsuccessful results count together. -/
theorem Counted.length_filter {stats : TestStats} {results : List TestResult}
    (h : Counted stats results) :
    (results.filter fun tr => nonPass tr.rtype).length = stats.nFailed + stats.nErrors := by
  rw [h.nFailed, h.nErrors, ← List.countP_eq_length_filter]
  have hcl := h.classified
  clear h
  induction results with
  | nil => rfl
  | cons tr rest ih =>
      have htr := (hcl tr List.mem_cons_self).1
      have hrest := ih fun q hq => hcl q (List.mem_cons_of_mem tr hq)
      rw [List.countP_cons, List.countP_cons, List.countP_cons, hrest]
      rcases htr with htr | htr | htr <;> simp only [nonPass, htr] <;> simp <;> omega

/-! ## runs -/

theorem runClosed_counted [Wire β] {x : Ctx} {call : ν → RunM List β ν Unit}
    (hcall : ∀ c, Keeps St.memory (call c)) :
    RunClosed x call fun {α} (y : RunM List β ν α) =>
      Maintains (fun s => Counted s.memory.2.1.stats s.memory.2.1.resultlst) (fun _ _ => True) y :=
  runClosed_memory (I := fun m => Counted m.2.1.stats m.2.1.resultlst)
    (caseClosed_memory hcall (I := fun m => Counted m.2.1.stats m.2.1.resultlst)
      (fun _ htr => Maintains.update fun _ hs => hs.add htr) (fun _ _ _ _ hs => hs))
    (fun _ _ _ _ _ hs _ => hs) (fun _ _ _ _ hs => hs)

/-! ## reachable states -/

/-- The states a program reaches that creates a runner, sets it up, adds
suites and runs it.  Between the calls the suites and test cases may be edited
in any way (`heap`), and each run may find another environment. -/
inductive Reachable (cfg : Config) : St CkList UInt8 NestedRun → Prop where
  | create (s : St CkList UInt8 NestedRun) (h1 : s.proc.sendFile1 = none)
      (h2 : s.proc.sendFile2 = none) : Reachable cfg { s with sr := srunnerCreate }
  | addSuite {s s' : St CkList UInt8 NestedRun} (suite : SuiteId) (hs : Reachable cfg s)
      (h : srunnerAddSuite suite s = .ok () s') : Reachable cfg s'
  | heap {s : St CkList UInt8 NestedRun} (h : Heap CkList NestedRun) (hs : Reachable cfg s) :
      Reachable cfg { s with heap := h }
  | config {s : St CkList UInt8 NestedRun} (fstat : ForkStatus) (log xml tap : Option CStr)
      (hs : Reachable cfg s) :
      Reachable cfg { s with
        sr := { s.sr with fstat := fstat, logFname := log, xmlFname := xml, tapFname := tap } }
  | run {s s' : St CkList UInt8 NestedRun} (env : Env) (lvl : Nat) (a : RunArgs)
      (hs : Reachable cfg s)
      (h : srunnerRunTagged ⟨cfg, env, lvl⟩ (runNested ⟨cfg, env, lvl⟩) a s = .ok () s') :
      Reachable cfg s'

/-- A reachable state has a counterpart, with counters in step. -/
theorem Reachable.counted {cfg : Config} {s : St CkList UInt8 NestedRun} (h : Reachable cfg s) :
    ∃ t, StRel cfg s t ∧ Counted t.sr.stats t.sr.resultlst := by
  induction h with
  | create s h1 h2 =>
      have hst : StRel cfg { s with sr := srunnerCreate }
          (St.abs { s with sr := srunnerCreate } none none) := by
        refine .mk _ ?_ ?_
        · rw [h1]
          exact .none
        · rw [h2]
          exact .none
      exact ⟨_, hst, counted_nil⟩
  | addSuite suite hs h ih =>
      obtain ⟨t, hst, ht⟩ := ih
      cases h
      exact ⟨_, hst.setList .slst rfl, ht⟩
  | heap h hs ih =>
      obtain ⟨t, hst, ht⟩ := ih
      cases hst with
      | mk h1 h2 => exact ⟨_, .mk _ h1 h2, ht⟩
  | config fstat log xml tap hs ih =>
      obtain ⟨t, hst, ht⟩ := ih
      cases hst with
      | mk h1 h2 => exact ⟨_, .mk _ h1 h2, ht⟩
  | run env lvl a hs h ih =>
      obtain ⟨t, hst, ht⟩ := ih
      have hkeep : ∀ c, Keeps St.memory
          (runNested ⟨cfg, env, lvl⟩ c : RunM List SendMsg NestedRun Unit) :=
        keeps_runNested _
      obtain ⟨t', ht', hst'⟩ := (sim_srunnerRunTagged (x := ⟨cfg, env, lvl⟩) (keeps_runNested _)
        (sim_runNested _) a).of_ok hst h
      have hrun := maintains_srunnerRunTagged (I := fun m => Counted m.2.1.stats m.2.1.resultlst)
        (runClosed_counted (x := ⟨cfg, env, lvl⟩) hkeep) a
      exact ⟨t', hst', hrun.of_ok ht ht'⟩

/-! ## the accessors -/

/-- A walk of the code and a walk of the abstract machine. -/
def WalkRel (w : Walk CkList α) (v : Walk List α) : Prop := v = ⟨w.sr.abs, w.out⟩

theorem sim_forResults {x : Ctx} {body : TestResult → EStateM Stop (Walk CkList α) (Option Unit)}
    {step : TestResult → EStateM Stop (Walk List α) (Option Unit)}
    (hkeep : ∀ tr, Keeps (fun w => w.sr) (body tr))
    (hbody : ∀ tr, Sim WalkRel (body tr) (step tr)) :
    Sim WalkRel (forResults x body) (forResults x step) := by
  refine Sim.lists _ (fun _ _ => rfl) (fun w v h => ?_) (fun w v l h hl => ?_)
    (fun tr => (hkeep tr).comp fun sr => sr.resultlst) hbody
  · rw [h]
    rfl
  · rw [WalkRel, h]
    simp only [SRunner.abs, hl]

theorem sim_storeResult (size : Nat) (tr : TestResult) :
    Sim WalkRel (storeResult size tr : EStateM Stop (Walk CkList TestResult) (Option Unit))
      (storeResult size tr) := by
  refine Sim.bind (Sim.read fun w v h => ?_) fun _ => Sim.ite
    (Sim.bind (Sim.update fun w v h => ?_) fun _ => Sim.pure _) (Sim.throw _)
  · rw [h]
  · rw [WalkRel, h]

theorem keeps_storeResult (size : Nat) (tr : TestResult) :
    Keeps (fun w => w.sr)
      (storeResult size tr : EStateM Stop (Walk CkList TestResult) (Option Unit)) :=
  Keeps.bind (Keeps.read _) fun _ => Keeps.ite
    (Keeps.bind (Keeps.update fun _ => rfl) fun _ => Keeps.pure _) (Keeps.throw _)

/-- A walk whose body appends, as long as there is room, appends everything. -/
theorem forResults_append (x : Ctx) {body : TestResult → EStateM Stop (Walk List α) (Option Unit)}
    (g : TestResult → List α) (size : Nat)
    (hbody : ∀ tr w, w.out.length + (g tr).length ≤ size →
      body tr w = .ok none { w with out := w.out ++ g tr })
    (w : Walk List α) (hsize : w.out.length + (w.sr.resultlst.flatMap g).length ≤ size) :
    forResults x body w = .ok none { w with out := w.out ++ w.sr.resultlst.flatMap g } := by
  have hwalk : ∀ (xs : List TestResult) (w : Walk List α),
      w.out.length + (xs.flatMap g).length ≤ size →
      xs.findSomeM? body w = .ok none { w with out := w.out ++ xs.flatMap g } := by
    intro xs
    induction xs with
    | nil =>
        intro w _
        rw [List.flatMap_nil, List.append_nil]
        rfl
    | cons tr xs ih =>
        intro w hw
        rw [List.flatMap_cons, List.length_append] at hw
        have hrest := ih { w with out := w.out ++ g tr } (by
          simp only [List.length_append]
          omega)
        rw [List.flatMap_cons, ← List.append_assoc, ← hrest]
        exact bind_of_ok _ (hbody tr w (by omega))
  exact hwalk _ w hsize

theorem storeResult_of_lt {size : Nat} {tr : TestResult} {w : Walk List TestResult}
    (h : w.out.length < size) :
    storeResult size tr w = .ok none { w with out := w.out ++ [tr] } := by
  rw [storeResult, bind_apply, read_apply]
  simp only [h, decide_true, if_true]
  rfl

theorem walkRel_nil (sr : SRunner CkList) : WalkRel (⟨sr, []⟩ : Walk CkList α) ⟨sr.abs, []⟩ := rfl

theorem sim_srunnerResults (x : Ctx) :
    Sim WalkRel (srunnerResults x : EStateM Stop (Walk CkList TestResult) Unit)
      (srunnerResults x) := by
  refine Sim.bind (Sim.read fun w v h => ?_) fun size =>
    Sim.bind (sim_forResults (keeps_storeResult size) (sim_storeResult size)) fun _ => Sim.pure _
  rw [h]
  rfl

theorem srunnerResults_list {sr : SRunner List} (h : Counted sr.stats sr.resultlst) (x : Ctx) :
    srunnerResults x ⟨sr, []⟩ = .ok () ⟨sr, sr.resultlst⟩ := by
  have hwalk := forResults_append x (fun tr => [tr]) sr.stats.nChecked
    (fun tr w hw => storeResult_of_lt hw) ⟨sr, []⟩ (by
      rw [List.flatMap_singleton', h.nChecked]
      exact Nat.le_of_eq (Nat.zero_add _))
  rw [List.flatMap_singleton', List.nil_append] at hwalk
  exact bind_of_ok _ hwalk

/-- `srunner_results` fills its array with the whole list. -/
theorem srunnerResults_eq {sr : SRunner CkList} (h : Counted sr.stats sr.resultlst.elems)
    (x : Ctx) :
    ∃ w, srunnerResults x ⟨sr, []⟩ = .ok () w ∧ w.out = sr.resultlst.elems := by
  obtain ⟨w, hw, hrel⟩ := (sim_srunnerResults x).to_ok (walkRel_nil sr)
    (@srunnerResults_list sr.abs h x)
  exact ⟨w, hw, (congrArg Walk.out hrel).symm⟩

theorem sim_srunnerFailures (x : Ctx) :
    Sim WalkRel (srunnerFailures x : EStateM Stop (Walk CkList TestResult) Unit)
      (srunnerFailures x) := by
  refine Sim.bind (Sim.read fun w v h => ?_) fun size =>
    Sim.bind (sim_forResults
      (fun tr => Keeps.ite (keeps_storeResult size tr) (Keeps.pure _))
      fun tr => Sim.ite (sim_storeResult size tr) (Sim.pure _)) fun _ => Sim.pure _
  rw [h]
  rfl

theorem srunnerFailures_list {sr : SRunner List} (h : Counted sr.stats sr.resultlst) (x : Ctx) :
    srunnerFailures x ⟨sr, []⟩ =
      .ok () ⟨sr, sr.resultlst.filter fun tr => nonPass tr.rtype⟩ := by
  have hbody : ∀ (tr : TestResult) (w : Walk List TestResult),
      w.out.length + (if nonPass tr.rtype then [tr] else []).length ≤ srunnerNtestsFailed sr →
      (if nonPass tr.rtype then storeResult (srunnerNtestsFailed sr) tr else pure none) w =
        .ok none { w with out := w.out ++ if nonPass tr.rtype then [tr] else [] } := by
    intro tr w hw
    by_cases hp : nonPass tr.rtype
    · rw [if_pos hp] at hw
      rw [if_pos hp, if_pos hp]
      exact storeResult_of_lt hw
    · rw [if_neg hp, if_neg hp, List.append_nil]
      rfl
  have hfilter : ∀ trs : List TestResult,
      (trs.flatMap fun tr => if nonPass tr.rtype then [tr] else []) =
        trs.filter fun tr => nonPass tr.rtype := by
    intro trs
    rw [flatMap_ite_singleton (fun tr : TestResult => nonPass tr.rtype = true) fun tr => tr,
      List.map_id']
    simp only [Bool.decide_eq_true]
  have hwalk := forResults_append x (fun tr => if nonPass tr.rtype then [tr] else [])
    (srunnerNtestsFailed sr) hbody ⟨sr, []⟩ (by
      rw [hfilter]
      exact Nat.le_of_eq ((Nat.zero_add _).trans h.length_filter))
  rw [hfilter, List.nil_append] at hwalk
  exact bind_of_ok _ hwalk

/-- `srunner_failures` fills its array with the unsuccessful results. -/
theorem srunnerFailures_eq {sr : SRunner CkList} (h : Counted sr.stats sr.resultlst.elems)
    (x : Ctx) :
    ∃ w, srunnerFailures x ⟨sr, []⟩ = .ok () w ∧
      w.out = sr.resultlst.elems.filter fun tr => nonPass tr.rtype := by
  obtain ⟨w, hw, hrel⟩ := (sim_srunnerFailures x).to_ok (walkRel_nil sr)
    (@srunnerFailures_list sr.abs h x)
  exact ⟨w, hw, (congrArg Walk.out hrel).symm⟩

/-- The lines of a report in `CK_NORMAL` mode. -/
theorem resultLines_normal (env : Env) (results : List TestResult) :
    resultLines env results .normal =
      (results.filter fun tr => nonPass tr.rtype).map fun tr => trStr tr ++ text "\n" := by
  have hline : ∀ tr : TestResult, trFprint env tr .normal =
      if nonPass tr.rtype then some (trStr tr ++ text "\n") else none := by
    intro tr
    cases htr : tr.rtype <;> simp [trFprint, resolvePrintmode, PrintOutput.rank, nonPass, htr]
  rw [resultLines, if_neg (by decide), funext hline]
  induction results with
  | nil => rfl
  | cons tr rest ih =>
      by_cases hp : nonPass tr.rtype
      · simp only [List.filterMap_cons, List.filter_cons, hp, if_true, ih, List.map_cons]
      · simp only [List.filterMap_cons, List.filter_cons, hp, Bool.false_eq_true, if_false, ih]

theorem sim_emit (chunk : Option (List UInt8)) :
    Sim WalkRel (emit chunk : EStateM Stop (Walk CkList (List UInt8)) Unit) (emit chunk) := by
  refine Sim.update fun w v h => ?_
  rw [WalkRel, h]

theorem sim_srunnerFprint (x : Ctx) (mode : PrintOutput) :
    Sim WalkRel (srunnerFprint x mode : EStateM Stop (Walk CkList (List UInt8)) Unit)
      (srunnerFprint x mode) := by
  refine Sim.bind (Sim.read fun w v h => ?_) fun _ => Sim.bind (sim_emit _) fun _ =>
    Sim.ite (Sim.pure _) (Sim.bind (sim_forResults
      (fun tr => Keeps.bind (Keeps.update fun _ => rfl) fun _ => Keeps.pure _)
      fun tr => Sim.bind (sim_emit _) fun _ => Sim.pure _) fun _ => Sim.pure _)
  rw [h]
  rfl

theorem srunnerFprint_list (sr : SRunner List) (x : Ctx) (mode : PrintOutput) :
    srunnerFprint x mode ⟨sr, []⟩ = .ok () ⟨sr, srunnerText x sr.stats sr.resultlst mode⟩ := by
  have hlines : ∀ (m : PrintOutput) (w : Walk List (List UInt8)),
      srunnerFprintResults x m w =
        .ok () { w with out := w.out ++ resultLines x.env w.sr.resultlst m } := by
    intro m w
    by_cases hm : m = .subunit
    · rw [srunnerFprintResults, resultLines, if_pos hm, if_pos hm, List.append_nil]
      rfl
    · rw [srunnerFprintResults, resultLines, if_neg hm, if_neg hm,
        List.filterMap_eq_flatMap_toList]
      exact bind_of_ok _ (forResults_append x (fun tr => (trFprint x.env tr m).toList) _
        (fun _ _ _ => rfl) w (Nat.le_refl _))
  exact hlines _ ⟨sr, _⟩

/-- `srunner_fprint` writes the summary, then the lines of the results. -/
theorem srunnerFprint_eq (sr : SRunner CkList) (x : Ctx) (mode : PrintOutput) :
    ∃ w, srunnerFprint x mode ⟨sr, []⟩ = .ok () w ∧
      w.out = srunnerText x sr.stats sr.resultlst.elems mode := by
  obtain ⟨w, hw, hrel⟩ := (sim_srunnerFprint x mode).to_ok (walkRel_nil sr)
    (srunnerFprint_list sr.abs x mode)
  exact ⟨w, hw, (congrArg Walk.out hrel).symm⟩

/-- **Counters and results**: in every reachable state the counters count the
result list, every result is classified and has a message, the arrays of
`srunner_results` and `srunner_failures` are filled exactly and in run order,
and a report in `CK_NORMAL` mode has one line for each failure and error. -/
theorem reachable_counters {cfg : Config} {s : St CkList UInt8 NestedRun}
    (h : Reachable cfg s) (x : Ctx) :
    Counted s.sr.stats s.sr.resultlst.elems ∧
      (∃ w, srunnerResults x ⟨s.sr, []⟩ = .ok () w ∧ w.out = s.sr.resultlst.elems ∧
        w.out.length = srunnerNtestsRun s.sr) ∧
      (∃ w, srunnerFailures x ⟨s.sr, []⟩ = .ok () w ∧
        w.out = (s.sr.resultlst.elems.filter fun tr => nonPass tr.rtype) ∧
        w.out.length = srunnerNtestsFailed s.sr) ∧
      (∃ w lines, srunnerFprint x .normal ⟨s.sr, []⟩ = .ok () w ∧
        w.out = (srStatStr x.cfg s.sr.stats ++ text "\n") :: lines ∧
        lines = ((s.sr.resultlst.elems.filter fun tr => nonPass tr.rtype).map
          fun tr => trStr tr ++ text "\n") ∧
        lines.length = s.sr.stats.nFailed + s.sr.stats.nErrors) := by
  obtain ⟨t, hst, ht⟩ := h.counted
  have hs : Counted s.sr.stats s.sr.resultlst.elems := by
    cases hst with
    | mk _ _ => exact ht
  obtain ⟨w1, hw1, hout1⟩ := srunnerResults_eq hs x
  obtain ⟨w2, hw2, hout2⟩ := srunnerFailures_eq hs x
  obtain ⟨w3, hw3, hout3⟩ := srunnerFprint_eq s.sr x .normal
  refine ⟨hs, ⟨w1, hw1, hout1, ?_⟩, ⟨w2, hw2, hout2, ?_⟩,
    w3, resultLines x.env s.sr.resultlst.elems .normal, hw3, hout3, resultLines_normal _ _, ?_⟩
  · rw [hout1]
    exact hs.nChecked.symm
  · rw [hout2]
    exact hs.length_filter
  · rw [resultLines_normal, List.length_map]
    exact hs.length_filter

/-- Two test cases, the first with a test that fails, the second with an
unchecked setup that fails. -/
def Sample.failing : List (Sample.Case NestedRun) :=
  [⟨fun _ => [], [Sample.test [Sample.fail], Sample.test []], none⟩,
    ⟨fun fl => if fl = .unchSflst then [Sample.fixture [Sample.fail]] else [], [], none⟩]

/-- A run of them without forking is a reachable state. -/
theorem reachable_counters_failing :
    ∃ s, Reachable Sample.cfg s ∧ s.sr.stats = ⟨3, 2, 0⟩ ∧
      Counted s.sr.stats s.sr.resultlst.elems := by
  have hcreate : Reachable Sample.cfg { Sample.start Sample.failing .nofork with
      sr := srunnerCreate } := .create _ rfl rfl
  have hstart : Reachable Sample.cfg (Sample.start Sample.failing .nofork) :=
    .config .nofork none none none hcreate
  have hrun : (returned (srunnerRunTagged Sample.ctx (runNested Sample.ctx) Sample.args
      (Sample.start Sample.failing .nofork))).map (fun r => r.2.sr.stats) = some ⟨3, 2, 0⟩ := by
    decide +kernel
  obtain ⟨_, s, hs, hstats⟩ := ok_of_returned hrun
  have hreach : Reachable Sample.cfg s := .run Sample.env 0 Sample.args hstart hs
  exact ⟨s, hreach, hstats, (reachable_counters hreach Sample.ctx).1⟩

end LibCheck
