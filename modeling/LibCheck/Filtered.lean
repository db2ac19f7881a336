import Mathlib.Data.List.Flatten
import LibCheck.Agreement

/-!
# LibCheck.Filtered

Selecting tests does not change what is reported for them.

* `plan_sublist` — a selection leaves out steps of the whole plan.
* `planUnits_verdicts` — the verdicts on functions that do the same whenever they are
  called do not depend on what is run before them.
* `selection_keeps_verdicts` — what a run of selected tests reports is what the run of all
  tests reports, less what it reports for the test cases that are left out.
-/

namespace LibCheck

/-! ## plans -/

/-- Nothing is left out. -/
structure RunArgs.Everything (a : RunArgs) : Prop where
  sname : a.sname = none
  tcname : a.tcname = none
  includeTags : a.includeTags = none
  excludeTags : a.excludeTags = none

section

variable {L : Type → Type} [Lists L] {heap : Heap L NestedRun} {a b : RunArgs}

theorem suitePlan_sublist (h : b.Everything) (tags : TCaseId → Option CStr) (su : SuiteId) :
    (suitePlan a heap tags su).Sublist (suitePlan b heap tags su) := by
  have hsuite : SuiteWanted b heap su :=
    ⟨.inl h.sname, fun n hn => by rw [h.tcname] at hn; cases hn⟩
  have hcases : ((Lists.elems (heap.lists (.tclst su))).filter fun tc =>
      Wanted b (heap.suiteName su) (heap.tcName tc) (tags tc)) =
        Lists.elems (heap.lists (.tclst su)) := by
    rw [List.filter_eq_self]
    intro tc _
    rw [decide_eq_true_eq, ← wanted_iff]
    simp [h.sname, h.tcname, h.includeTags, h.excludeTags]
  rw [suitePlan, suitePlan, if_pos hsuite, hcases]
  split
  · exact ((List.Sublist.refl _).append (List.filter_sublist.map _)).append (.refl _)
  · exact List.nil_sublist _

/-- A selection leaves out steps of the whole plan. -/
theorem plan_sublist (h : b.Everything) (tags : TCaseId → Option CStr) :
    (plan a heap tags).Sublist (plan b heap tags) :=
  .flatMap_right _ fun su _ => suitePlan_sublist h tags su

/-- The test cases that a run selects, in order. -/
def plannedCases (a : RunArgs) (heap : Heap L NestedRun) (tags : TCaseId → Option CStr) :
    List TCaseId :=
  (plan a heap tags).filterMap RunStep.tcase?

/-- A selection leaves out test cases. -/
theorem plannedCases_sublist (h : b.Everything) (tags : TCaseId → Option CStr) :
    (plannedCases a heap tags).Sublist (plannedCases b heap tags) :=
  (plan_sublist h tags).filterMap RunStep.tcase?

/-! ## functions that do the same at every time -/

/-- The functions of the test case do the same whenever they are called. -/
structure Timeless (heap : Heap L NestedRun) (tc : TCaseId) : Prop where
  fixtures : ∀ fl, ∀ f ∈ Lists.elems (heap.lists (.fixtures fl tc)), ∀ now now',
    f.sfun.acts now = f.sfun.acts now'
  tests : ∀ tfun ∈ Lists.elems (heap.lists (.tflst tc)), ∀ i now now',
    tfun.ttest.fn i now = tfun.ttest.fn i now'

namespace Timeless

variable {tc : TCaseId} (h : Timeless heap tc)
include h

theorem map_acts (fl : FixtureList) (now now' : When) :
    (Lists.elems (heap.lists (.fixtures fl tc))).map (fun f => f.sfun.acts now) =
      (Lists.elems (heap.lists (.fixtures fl tc))).map fun f => f.sfun.acts now' :=
  List.map_congr_left fun f hf => h.fixtures fl f hf now now'

theorem firstFailure (cfg : Config) (fl : FixtureList) (now now' : When) :
    firstFailure cfg now (Lists.elems (heap.lists (.fixtures fl tc))) =
      LibCheck.firstFailure cfg now' (Lists.elems (heap.lists (.fixtures fl tc))) := by
  have hmap := congrArg (List.findSome? (failureOf cfg)) (h.map_acts fl now now')
  rwa [List.findSome?_map, List.findSome?_map] at hmap

theorem fixturesFail (fl : FixtureList) (k k' : Nat) :
    fixturesFail heap fl k tc = LibCheck.fixturesFail heap fl k' tc := by
  have hmap := congrArg (List.any · fails) (h.map_acts fl ⟨k, 0⟩ ⟨k', 0⟩)
  rwa [List.any_map, List.any_map] at hmap

theorem verdict (cfg : Config) {tfun : TF NestedRun}
    (htfun : tfun ∈ Lists.elems (heap.lists (.tflst tc))) (i : Int) (tcname : CStr)
    (now now' : When) :
    (testCode heap tc tfun i now).verdict cfg tcname =
      (testCode heap tc tfun i now').verdict cfg tcname := by
  have hbody : (testCode heap tc tfun i now).body = (testCode heap tc tfun i now').body :=
    h.tests tfun htfun i now now'
  have hfailure : (testCode heap tc tfun i now).failure cfg =
      (testCode heap tc tfun i now').failure cfg := by
    unfold TestCode.failure
    rw [hbody]
    simp only [testCode, h.firstFailure cfg .chSflst now now', h.firstFailure cfg .chTflst now now']
  unfold TestCode.verdict
  rw [hfailure, hbody]
  rfl

theorem testUnits_verdicts (cfg : Config) {ts : List (TF NestedRun × Int)}
    (hts : ∀ t ∈ ts, t.1 ∈ Lists.elems (heap.lists (.tflst tc))) (now now' : When) :
    (testUnits tc now ts).map (unitVerdict cfg heap) =
      (testUnits tc now' ts).map (unitVerdict cfg heap) := by
  induction ts generalizing now now' with
  | nil => rfl
  | cons t ts ih =>
      rw [testUnits, testUnits, List.map_cons, List.map_cons, unitVerdict, unitVerdict,
        h.verdict cfg (hts t List.mem_cons_self) t.2 _ _ { now' with test := now'.test + 1 },
        ih (fun t' ht' => hts t' (List.mem_cons_of_mem t ht')) _
          { now' with test := now'.test + 1 }]

/-- The number of a test case does not show in its verdicts. -/
theorem caseUnits_verdicts (cfg : Config) (k k' : Nat) :
    (caseUnits heap k tc).map (unitVerdict cfg heap) =
      (caseUnits heap k' tc).map (unitVerdict cfg heap) := by
  rw [caseUnits, caseUnits, h.fixturesFail .unchSflst k k']
  split
  · rw [List.map_singleton, List.map_singleton, unitVerdict, unitVerdict,
      h.firstFailure cfg .unchSflst ⟨k, 0⟩ ⟨k', 0⟩]
  · refine h.testUnits_verdicts cfg (fun t ht => ?_) _ _
    obtain ⟨tfun, htfun, ht⟩ := List.mem_flatMap.mp ht
    obtain ⟨i, -, rfl⟩ := List.mem_map.mp ht
    exact htfun

end Timeless

/-- The verdicts on the units of a test case, of functions that do the same whenever they are
called. -/
def caseVerdicts (cfg : Config) (heap : Heap L NestedRun) (tc : TCaseId) : List (Option Verdict) :=
  (caseUnits heap 0 tc).map (unitVerdict cfg heap)

/-- The verdicts of a plan, test case by test case. -/
theorem planUnits_verdicts (cfg : Config) {ks : List RunStep}
    (h : ∀ tc, .tcase tc ∈ ks → Timeless heap tc) (c : Nat × Bool) :
    (planUnits heap c ks).map (unitVerdict cfg heap) =
      (ks.filterMap RunStep.tcase?).flatMap (caseVerdicts cfg heap) := by
  induction ks generalizing c with
  | nil => rfl
  | cons step ks ih =>
      have hrest : ∀ tc, .tcase tc ∈ ks → Timeless heap tc := fun tc htc =>
        h tc (List.mem_cons_of_mem step htc)
      cases step with
      | suiteStart su => exact ih hrest c
      | suiteEnd su => exact ih hrest c
      | tcase tc =>
          have hunits : planUnits heap c (.tcase tc :: ks) =
              caseUnits heap (c.1 + 1) tc ++ planUnits heap (carry heap c (.tcase tc)) ks := by
            rw [planUnits, foreseen, List.flatMap_cons]
            rfl
          rw [hunits, List.map_append, ih hrest,
            (h tc List.mem_cons_self).caseUnits_verdicts cfg (c.1 + 1) 0]
          rfl

end

/-! ## the code -/

section

variable {x : Ctx} {s : St CkList UInt8 NestedRun} {a b : RunArgs} {tags : TCaseId → Option CStr}

/-- **Selecting tests does not change what is reported for them.**  For plain functions that do
the same whenever they are called, a run with any selection and a run of everything report,
test case by test case, the same verdicts: those that the code of the test case gives.  So the
one reports what the other reports, less what it reports for the test cases left out. -/
theorem selection_keeps_verdicts (hs : Legible x.cfg s.proc) (h2 : s.proc.sendFile2 = none)
    (hlive : s.proc.killIn = none)
    (htags : ∀ tc, (s.heap.lists (.tags tc)).elems = tagStringToList (tags tc))
    (hctx : ∀ c, Limited x.cfg.maxMsg [.ctx c]) (hkill : ∀ now, x.env.kill now = none)
    (hd : ∀ now, 0 ≤ (testDuration x now).toInt) (hall : (effectiveArgs x.env b).Everything)
    (hfix : ∀ tc, .tcase tc ∈ plan (effectiveArgs x.env b) s.heap tags →
      PlainFixtures x.cfg s.heap tc)
    (htests : ∀ tc, .tcase tc ∈ plan (effectiveArgs x.env b) s.heap tags →
      OrdinaryTests x.cfg s.heap tc)
    (htime : ∀ tc, .tcase tc ∈ plan (effectiveArgs x.env b) s.heap tags → Timeless s.heap tc) :
    ∃ s₁ s₀ rs₁ rs₀, srunnerRunTagged x (runNested x) a s = .ok () s₁ ∧
      srunnerRunTagged x (runNested x) b s = .ok () s₀ ∧
      s₁.sr.resultlst.elems = s.sr.resultlst.elems ++ rs₁ ∧
      s₀.sr.resultlst.elems = s.sr.resultlst.elems ++ rs₀ ∧
      (plannedCases (effectiveArgs x.env a) s.heap tags).Sublist
        (plannedCases (effectiveArgs x.env b) s.heap tags) ∧
      (rs₁.map fun tr => some tr.verdict) =
        (plannedCases (effectiveArgs x.env a) s.heap tags).flatMap (caseVerdicts x.cfg s.heap) ∧
      (rs₀.map fun tr => some tr.verdict) =
        (plannedCases (effectiveArgs x.env b) s.heap tags).flatMap
          (caseVerdicts x.cfg s.heap) := by
  have hsub : (plan (effectiveArgs x.env a) s.heap tags).Sublist
      (plan (effectiveArgs x.env b) s.heap tags) := plan_sublist hall tags
  obtain ⟨s₁, hrun₁, -, rs₁, hrs₁, hv₁⟩ := plain_verdicts (a := a) hs h2 hlive htags hctx hkill hd
    (fun tc htc => hfix tc (hsub.mem htc)) fun tc htc => htests tc (hsub.mem htc)
  obtain ⟨s₀, hrun₀, -, rs₀, hrs₀, hv₀⟩ := plain_verdicts (a := b) hs h2 hlive htags hctx hkill hd
    hfix htests
  rw [planUnits_verdicts x.cfg fun tc htc => htime tc (hsub.mem htc)] at hv₁
  rw [planUnits_verdicts x.cfg htime] at hv₀
  exact ⟨s₁, s₀, rs₁, rs₀, hrun₁, hrun₀, hrs₁, hrs₀, plannedCases_sublist hall tags, hv₁.symm,
    hv₀.symm⟩

end

theorem Sample.timeless_passFail (fstat : ForkStatus) :
    Timeless (Sample.start (Sample.oneCase [Sample.test [], Sample.test [Sample.fail]]) fstat).heap
      0 where
  fixtures _ _ hf := absurd hf List.not_mem_nil
  tests tfun htfun _ _ _ := by
    rw [Sample.oneCase_tests] at htfun
    simp only [List.mem_cons, List.not_mem_nil, or_false] at htfun
    obtain rfl | rfl := htfun <;> rfl

/-- A test case without tags, of two tests. -/
def Sample.untagged : St CkList UInt8 NestedRun :=
  Sample.start (Sample.oneCase [Sample.test [], Sample.test [Sample.fail]]) .fork

/-- The tests with a tag and all tests: nothing is reported, and what the one test case gives. -/
theorem selection_keeps_verdicts_tagged :
    ∃ s₁ s₀, srunnerRunTagged Sample.ctx (runNested Sample.ctx)
        { Sample.args with includeTags := some (.lit "slow") } Sample.untagged = .ok () s₁ ∧
      srunnerRunTagged Sample.ctx (runNested Sample.ctx) Sample.args Sample.untagged = .ok () s₀ ∧
      s₁.sr.resultlst.elems = [] ∧
      (s₀.sr.resultlst.elems.map fun tr => some tr.verdict) =
        caseVerdicts Sample.ctx.cfg Sample.untagged.heap 0 := by
  obtain ⟨s₁, s₀, rs₁, rs₀, hrun₁, hrun₀, hrs₁, hrs₀, -, hv₁, hv₀⟩ :=
    selection_keeps_verdicts (x := Sample.ctx) (s := Sample.untagged)
      (a := { Sample.args with includeTags := some (.lit "slow") }) (b := Sample.args)
      (legible_of_closed rfl rfl) rfl rfl (Sample.elems_tags _ .fork) Sample.limited_ctx
      (fun _ => rfl) Sample.duration_nonneg ⟨rfl, rfl, rfl, rfl⟩
      (fun tc htc => by
        rw [Sample.eq_zero_of_mem_plan htc]
        exact Sample.oneCase_plainFixtures _ .fork)
      (fun tc htc => by
        rw [Sample.eq_zero_of_mem_plan htc]
        exact Sample.ordinaryTests_passFail .fork)
      (fun tc htc => by
        rw [Sample.eq_zero_of_mem_plan htc]
        exact Sample.timeless_passFail .fork)
  refine ⟨s₁, s₀, hrun₁, hrun₀, ?_, ?_⟩
  · have hnone : rs₁ = [] := List.map_eq_nil_iff.mp hv₁
    rw [hrs₁, hnone]
    rfl
  · rw [hrs₀]
    exact hv₀.trans (List.append_nil _)

end LibCheck
