import LibCheck.Counters
import LibCheck.Outcomes

/-!
# LibCheck.Agreement

Whole runs of the code, test by test.

* `forked_results` — with forking, the results of a run are those of the scripts of its tests,
  each by itself, whatever ends the processes of the others.
* `modes_agree` — a run of plain code records the same verdicts with forking and without.
-/

namespace LibCheck

open Prog

/-! ## tests -/

section

variable {x : Ctx} {H : Heap List NestedRun} {tc : TCaseId}
  (hctx : ∀ c, Limited x.cfg.maxMsg [.ctx c])

theorem fits_of_limited {cfg : Config} {m : SendMsg} (hnn : m.NonNeg) (h : Limited cfg.maxMsg [m]) :
    fits cfg m = true := by
  obtain ⟨hmax, hint⟩ := h m List.mem_cons_self
  rw [fits, ppack_of_fits hnn hint hmax]

theorem tcaseRunTfun_of_fork {s : St List SendMsg NestedRun}
    (hmode : forkStatusOf x.env s.sr.fstat = .fork) (tfun : TF NestedRun) (i : Int) :
    tcaseRunTfun x (runNested x) tc tfun i s = tcaseRunTfunFork x (runNested x) tc tfun i s := by
  rw [tcaseRunTfun, srunnerForkStatus, read_bind, hmode]

theorem tcaseRunTfun_of_nofork {s : St List SendMsg NestedRun}
    (hmode : forkStatusOf x.env s.sr.fstat = .nofork) (tfun : TF NestedRun) (i : Int) :
    tcaseRunTfun x (runNested x) tc tfun i s = tcaseRunTfunNofork x (runNested x) tc tfun i s := by
  rw [tcaseRunTfun, srunnerForkStatus, read_bind, hmode]

include hctx in
/-- With forking, each test has the result of its script. -/
theorem tests_forked (hkill : ∀ now sig, x.env.kill now ≠ some (0, sig))
    (hd : ∀ now, 0 ≤ (testDuration x now).toInt)
    (hcalls : ∀ tfun ∈ H.lists (.tflst tc), ∀ i now, (testCode H tc tfun i now).CallFree) :
    Tests x H .fork (fun tcname t tr => tr = t.result x tcname) tc := by
  intro tfun htfun i s hs
  have hheap := hs.serving.midrun.heap
  have hcode : testCode s.heap tc tfun i s.now = testCode H tc tfun i s.now := by rw [hheap]
  obtain ⟨s', hrun, hidle, hmem, hfst⟩ := tcaseRunTfunFork_result (x := x) (s := s) (runNested x)
    (t := testCode H tc tfun i s.now) (hcalls tfun htfun i s.now) hcode hs.serving.fstat
    hs.serving.midrun.mode (fits_of_limited (nonNeg_ctx _) (hctx _)) (hkill _) (hd _)
    ⟨hs.serving.able, fun f hf => hs.blank f hf rfl⟩
  have htest := (tcaseRunTfun_of_fork hs.serving.midrun.mode tfun i).trans hrun
  have hcalm := tcaseRunTfun_pending hs.serving.able.file1 htest
  have hheap' : s'.heap = s.heap := congrArg (fun m => m.1) hmem
  have hsr' : s'.sr = s.sr := congrArg (fun m => m.2.1) hmem
  refine ⟨_, s', htest, ⟨⟨⟨hheap'.trans hheap, hidle.able.file1, ?_⟩, hidle.able, ?_,
    hfst.trans hs.serving.fstat, fun _ => hcalm⟩, hcalm, fun f hf _ => hidle.blank f hf⟩,
    congrArg (fun m => m.2.2) hmem, hsr', by rw [hheap]⟩
  · rw [hsr']
    exact hs.serving.midrun.mode
  · rw [hsr']
    exact hs.serving.loglst

theorem Plain.noCalls {ν : Type} {acts : List (Act ν)} (h : Plain acts) : NoCalls acts := by
  induction h with
  | nil => exact fun _ hc => absurd hc List.not_mem_nil
  | markPoint loc h ih =>
      intro c hc
      rcases List.mem_cons.mp hc with hc | hc
      · cases hc
      · exact ih c hc
  | assertFailed loc expr msg =>
      intro c hc
      cases List.mem_singleton.mp hc

theorem TestCode.Plain.callFree {ν : Type} {cfg : Config} {t : TestCode ν} (h : t.Plain cfg) :
    t.CallFree where
  setups f hf := (h.setups f hf).1.noCalls
  body := h.body.1.noCalls
  teardowns f hf := (h.teardowns f hf).1.noCalls

/-- The tests of the test case are ordinary ones, of plain functions. -/
structure OrdinaryTests {L : Type → Type} [Lists L] (cfg : Config) (heap : Heap L NestedRun)
    (tc : TCaseId) : Prop where
  plain : ∀ tfun ∈ Lists.elems (heap.lists (.tflst tc)), ∀ i now,
    (testCode heap tc tfun i now).Plain cfg
  ordinary : ∀ tfun ∈ Lists.elems (heap.lists (.tflst tc)),
    tfun.signal = 0 ∧ tfun.allowedExitValue = 0

variable (hkill : ∀ now, x.env.kill now = none) (hd : ∀ now, 0 ≤ (testDuration x now).toInt)

include hctx hkill hd in
/-- In both modes, ordinary tests are reported as their code says. -/
theorem tests_reported {mode : ForkStatus} (hmode : mode = .fork ∨ mode = .nofork)
    (htests : OrdinaryTests x.cfg H tc) :
    Tests x H mode (fun tcname t tr => t.Reports x.cfg tcname tr) tc := by
  intro tfun htfun i s hs
  have hheap := hs.serving.midrun.heap
  have hcode : testCode s.heap tc tfun i s.now = testCode H tc tfun i s.now := by rw [hheap]
  have hname : s.heap.tcName tc = H.tcName tc := by rw [hheap]
  have hplain := htests.plain tfun htfun i s.now
  obtain ⟨hsig, hexit⟩ := htests.ordinary tfun htfun
  obtain ⟨g, hg, -⟩ := hs.serving.able.readable
  have hold := noFail_of_not_pending hs.serving.able hs.calm hg
  rcases hmode with rfl | rfl
  · obtain ⟨tr, s', hrun, hs', hnow, hsr, htr⟩ := tests_forked hctx
      (fun now sig => by rw [hkill]; exact (Option.some_ne_none _).symm) hd
      (fun tfun htfun i now => (htests.plain tfun htfun i now).callFree) tfun htfun i s hs
    have hlim : Limited x.cfg.maxMsg [.duration (testDuration x s.now)] := by
      obtain ⟨hmax, hint⟩ := List.forall_mem_singleton.mp (hctx .setup)
      exact List.forall_mem_singleton.mpr ⟨hmax, hint⟩
    obtain ⟨tr', s'', hrun', hrep⟩ : ∃ tr s',
        tcaseRunTfunFork x (runNested x) tc tfun i s = .ok tr s' ∧
        (testCode H tc tfun i s.now).Reports x.cfg (s.heap.tcName tc) tr :=
      tcaseRunTfunFork_plain (t := testCode H tc tfun i s.now) hplain hcode hsig hexit
        hs.serving.fstat hs.serving.midrun.mode (hkill _) (fun _ => ⟨hd _, hlim⟩) hg hold
    cases hrun.symm.trans ((tcaseRunTfun_of_fork hs.serving.midrun.mode tfun i).trans hrun')
    exact ⟨tr, s', hrun, hs', hnow, hsr, hname ▸ hrep⟩
  · obtain ⟨tr, s', hrun, hserved⟩ := tcaseRunTfun_calls (x := x) (s := s) hplain (.inr rfl) hcode
      hs.serving.able hs.serving.fstat hs.serving.midrun.mode (hkill _) (fun _ _ => hd _)
    replace hrun : tcaseRunTfun x (runNested x) tc tfun i s = .ok tr s' := hrun
    have hcalm := tcaseRunTfun_pending hs.serving.able.file1 hrun
    obtain ⟨tr', s'', hrun', -, hrep⟩ := tcaseRunTfunNofork_plain (x := x) (s := s) (runNested x)
      (t := testCode H tc tfun i s.now) hplain hcode (by rw [hs.serving.fstat]; decide)
      hs.serving.midrun.mode hs.serving.able.killIn hg hold
    cases hrun.symm.trans ((tcaseRunTfun_of_nofork hs.serving.midrun.mode tfun i).trans hrun')
    have hmode : ForkStatus.nofork ≠ .fork := by decide
    exact ⟨tr, s', hrun, ⟨hs.serving.served hserved fun he => absurd he hmode, hcalm,
      fun _ _ he => absurd he hmode⟩, hserved.now, hserved.sr, hname ▸ hrep⟩

end

namespace SameCases

variable {L L' : Type → Type} [Lists L] [Lists L'] {H : Heap L NestedRun} {K : Heap L' NestedRun}
  (h : SameCases H K)
include h

theorem ordinaryTests {cfg : Config} {tc : TCaseId} (ht : OrdinaryTests cfg H tc) :
    OrdinaryTests cfg K tc where
  plain := by
    rw [h.tflst, h.testCode_eq]
    exact ht.plain
  ordinary := by
    rw [h.tflst]
    exact ht.ordinary

end SameCases

/-! ## the code -/

section

variable {x : Ctx} {s : St CkList UInt8 NestedRun} {a : RunArgs} {tags : TCaseId → Option CStr}

/-- A run of the code, unit by unit. -/
theorem srunnerRunTagged_outcomes_code {T : CStr → TestCode NestedRun → TestResult → Prop}
    (hs : Legible x.cfg s.proc) (h2 : s.proc.sendFile2 = none) (hlive : s.proc.killIn = none)
    (htags : ∀ tc, (s.heap.lists (.tags tc)).elems = tagStringToList (tags tc))
    (hctx : ∀ c, Limited x.cfg.maxMsg [.ctx c])
    (hfix : ∀ tc, .tcase tc ∈ plan (effectiveArgs x.env a) s.heap tags →
      PlainFixtures x.cfg s.heap tc)
    (htests : ∀ tc, .tcase tc ∈ plan (effectiveArgs x.env a) s.heap tags →
      ∀ H : Heap List NestedRun, SameCases s.heap H →
        Tests x H (forkStatusOf x.env s.sr.fstat) T tc) :
    ∃ s', srunnerRunTagged x (runNested x) a s = .ok () s' ∧
      (Counted s.sr.stats s.sr.resultlst.elems → Counted s'.sr.stats s'.sr.resultlst.elems) ∧
      ∃ rs, s'.sr.resultlst.elems = s.sr.resultlst.elems ++ rs ∧
        List.Forall₂ (Outcome x.cfg s.heap T)
          (planUnits s.heap (s.now.tcrun, false) (plan (effectiveArgs x.env a) s.heap tags))
          rs := by
  obtain ⟨u, hsu⟩ : ∃ u, StRel x.cfg s u := Legible.exists_stRel hs
  have hsim := sim_srunnerRunTagged (x := x) (keeps_runNested _) (sim_runNested _) a
  cases hsu with
  | @mk f1 f2 hfile1 hfile2 =>
      have hnone : f2 = none := by
        rw [h2] at hfile2
        cases hfile2
        rfl
      subst hnone
      -- the abstract machine has the same test cases
      have habs : SameCases s.heap s.heap.abs := ⟨rfl, rfl, fun _ _ _ => rfl⟩
      have hplan : plan (effectiveArgs x.env a) s.heap.abs tags =
          plan (effectiveArgs x.env a) s.heap tags := habs.plan _ tags
      obtain ⟨u', hrun', rs, hrs, hu⟩ := srunnerRunTagged_outcomes (s := s.abs f1 none) (a := a)
        (T := T) hctx rfl hlive htags (fun tc htc => habs.plainFixtures (hfix tc (hplan ▸ htc)))
        (fun tc htc H hH => htests tc (hplan ▸ htc) H (habs.trans hH))
      obtain ⟨s', hrun, hst'⟩ := hsim.to_ok (.mk s hfile1 hfile2) hrun'
      replace hu : List.Forall₂ (Outcome x.cfg s.heap.abs T)
          (planUnits s.heap.abs (s.now.tcrun, false)
            (plan (effectiveArgs x.env a) s.heap.abs tags)) rs := hu
      rw [hplan, habs.planUnits, habs.outcome] at hu
      have hkeep : ∀ c, Keeps St.memory (runNested x c : RunM List SendMsg NestedRun Unit) :=
        keeps_runNested _
      have hcount := maintains_srunnerRunTagged (I := fun m => Counted m.2.1.stats m.2.1.resultlst)
        (runClosed_counted (x := x) hkeep) a
      cases hst' with
      | mk _ _ =>
          exact ⟨s', hrun, fun hc => hcount.of_ok (s := s.abs f1 none) hc hrun', rs, hrs, hu⟩

/-- **With forking, tests are isolated.**  Whatever ends the processes of the tests (failing
assertions, exits, signals, or being killed from outside after the first message), the run
returns, and has recorded for each unit of its plan the result that the script of its own
code gives, as if it were the only one. -/
theorem forked_results (hs : Legible x.cfg s.proc) (h2 : s.proc.sendFile2 = none)
    (hlive : s.proc.killIn = none) (hmode : forkStatusOf x.env s.sr.fstat = .fork)
    (htags : ∀ tc, (s.heap.lists (.tags tc)).elems = tagStringToList (tags tc))
    (hctx : ∀ c, Limited x.cfg.maxMsg [.ctx c])
    (hkill : ∀ now sig, x.env.kill now ≠ some (0, sig))
    (hd : ∀ now, 0 ≤ (testDuration x now).toInt)
    (hfix : ∀ tc, .tcase tc ∈ plan (effectiveArgs x.env a) s.heap tags →
      PlainFixtures x.cfg s.heap tc)
    (hcalls : ∀ tc, .tcase tc ∈ plan (effectiveArgs x.env a) s.heap tags →
      ∀ tfun ∈ (s.heap.lists (.tflst tc)).elems, ∀ i now,
        (testCode s.heap tc tfun i now).CallFree) :
    ∃ s', srunnerRunTagged x (runNested x) a s = .ok () s' ∧
      ∃ rs, s'.sr.resultlst.elems = s.sr.resultlst.elems ++ rs ∧
        List.Forall₂ (Outcome x.cfg s.heap fun tcname t tr => tr = t.result x tcname)
          (planUnits s.heap (s.now.tcrun, false) (plan (effectiveArgs x.env a) s.heap tags))
          rs := by
  obtain ⟨s', hrun, -, hrs⟩ := srunnerRunTagged_outcomes_code (a := a) hs h2 hlive htags hctx hfix
    fun tc htc H hH => by
      rw [hmode]
      refine tests_forked hctx hkill hd fun tfun htfun i now => ?_
      have hmem : tfun ∈ Lists.elems (H.lists (.tflst tc)) := htfun
      rw [hH.tflst] at hmem
      rw [hH.testCode_eq]
      exact hcalls tc htc tfun hmem i now
  exact ⟨s', hrun, hrs⟩

/-- One test case, without fixtures. -/
def Sample.oneCase (tests : List (TF NestedRun)) : List (Sample.Case NestedRun) :=
  [⟨fun _ => [], tests, none⟩]

theorem Sample.oneCase_plan (tests : List (TF NestedRun)) (fstat : ForkStatus) :
    plan (effectiveArgs Sample.ctx.env Sample.args) (Sample.start (Sample.oneCase tests) fstat).heap
      (fun tc => (Sample.oneCase tests)[tc]?.bind Sample.Case.tags) =
        [.suiteStart 0, .tcase 0, .suiteEnd 0] :=
  rfl

theorem Sample.oneCase_tests (tests : List (TF NestedRun)) (fstat : ForkStatus) :
    Lists.elems ((Sample.start (Sample.oneCase tests) fstat).heap.lists (.tflst 0)) = tests :=
  elems_ofElems tests

theorem Sample.eq_zero_of_mem_plan {tests : List (TF NestedRun)} {fstat : ForkStatus} {tc : TCaseId}
    (h : .tcase tc ∈ plan (effectiveArgs Sample.ctx.env Sample.args)
      (Sample.start (Sample.oneCase tests) fstat).heap
      (fun tc => (Sample.oneCase tests)[tc]?.bind Sample.Case.tags)) : tc = 0 := by
  rw [Sample.oneCase_plan] at h
  simpa using h

theorem Sample.oneCase_plainFixtures (tests : List (TF NestedRun)) (fstat : ForkStatus) :
    PlainFixtures Sample.ctx.cfg (Sample.start (Sample.oneCase tests) fstat).heap 0 where
  setups _ hf := absurd hf List.not_mem_nil
  teardowns _ hf := absurd hf List.not_mem_nil

theorem Sample.duration_nonneg (now : When) : 0 ≤ (testDuration Sample.ctx now).toInt :=
  show 0 ≤ (Int32.ofInt (diffInUsec ⟨0, 0⟩ ⟨0, 0⟩)).toInt by decide +kernel

/-- Tests that exit, are killed by a signal, fail and pass. -/
def Sample.dying : List (TF NestedRun) :=
  [Sample.test [.exit 3], Sample.test [.raise ⟨11, by decide⟩], Sample.test [Sample.fail],
    Sample.test []]

theorem Sample.callFree_dying :
    ∀ tfun ∈ Sample.dying, ∀ i now,
      (testCode (Sample.start (Sample.oneCase Sample.dying) .fork).heap 0 tfun i now).CallFree := by
  intro tfun htfun i now
  refine ⟨fun f hf => absurd hf List.not_mem_nil, ?_, fun f hf => absurd hf List.not_mem_nil⟩
  simp only [Sample.dying, List.mem_cons, List.not_mem_nil, or_false] at htfun
  obtain rfl | rfl | rfl | rfl := htfun <;>
    simp [NoCalls, testCode, TestCode.body, Sample.test, tcaseAddTest, Sample.fail]

/-- Each of them has its own result. -/
theorem forked_results_dying :
    ∃ s' tr₁ tr₂ tr₃ tr₄, srunnerRunTagged Sample.ctx (runNested Sample.ctx) Sample.args
        (Sample.start (Sample.oneCase Sample.dying) .fork) = .ok () s' ∧
      s'.sr.resultlst.elems = [tr₁, tr₂, tr₃, tr₄] ∧ tr₁.rtype = .error ∧ tr₂.rtype = .error ∧
      tr₃.rtype = .failure ∧ tr₄.rtype = .pass := by
  obtain ⟨s', hrun, rs, hrs, hall⟩ := forked_results
    (s := Sample.start (Sample.oneCase Sample.dying) .fork) (x := Sample.ctx) (a := Sample.args)
    (legible_of_closed rfl rfl) rfl rfl rfl (Sample.elems_tags (Sample.oneCase Sample.dying) .fork)
    Sample.limited_ctx (fun _ _ he => nomatch he) Sample.duration_nonneg
    (fun tc htc => by
      rw [Sample.eq_zero_of_mem_plan htc]
      exact Sample.oneCase_plainFixtures Sample.dying .fork)
    (fun tc htc => by
      rw [Sample.eq_zero_of_mem_plan htc]
      exact Sample.callFree_dying)
  rw [Sample.oneCase_plan] at hall
  have hunits : planUnits (Sample.start (Sample.oneCase Sample.dying) .fork).heap (0, false)
      [.suiteStart 0, .tcase 0, .suiteEnd 0] =
        [.test ⟨1, 1⟩ 0 (Sample.test [.exit 3]) 0,
          .test ⟨1, 2⟩ 0 (Sample.test [.raise ⟨11, by decide⟩]) 0,
          .test ⟨1, 3⟩ 0 (Sample.test [Sample.fail]) 0, .test ⟨1, 4⟩ 0 (Sample.test []) 0] := rfl
  replace hall := hunits ▸ hall
  rcases hall with _ | ⟨h₁, _ | ⟨h₂, _ | ⟨h₃, _ | ⟨h₄, hnil⟩⟩⟩⟩
  cases hnil
  refine ⟨s', _, _, _, _, hrun, hrs, ?_, ?_, ?_, ?_⟩
  · rw [h₁]
    decide +kernel
  · rw [h₂]
    decide +kernel
  · rw [h₃]
    decide +kernel
  · rw [h₄]
    decide +kernel

end

/-! ## both modes -/

/-- What a result says of its test. -/
structure Verdict where
  rtype : TestResultType
  ctx : CkResultCtx
  msg : Option CStr
  file : Option CStr
  line : Int32
  tcname : Option CStr
deriving DecidableEq, Repr

def TestResult.verdict (tr : TestResult) : Verdict :=
  ⟨tr.rtype, tr.ctx, tr.msg, tr.file, tr.line, tr.tcname⟩

/-- The verdict on a test, from its code. -/
def TestCode.verdict {ν : Type} (cfg : Config) (tcname : CStr) (t : TestCode ν) : Verdict :=
  match t.failure cfg with
  | some (c, f) => ⟨.failure, c, some f.text, some f.loc.file, f.loc.line, some tcname⟩
  | none =>
      ⟨.pass, .test, some passMsg, some (lastLoc t.tfun.ttest.loc t.body).file,
        (lastLoc t.tfun.ttest.loc t.body).line, some tcname⟩

/-- The verdict on a unit, from the code of its test case; setups that pass have none. -/
def unitVerdict {L : Type → Type} [Lists L] (cfg : Config) (heap : Heap L NestedRun) :
    TestUnit → Option Verdict
  | .setup k tc =>
      (firstFailure cfg ⟨k, 0⟩ (Lists.elems (heap.lists (.fixtures .unchSflst tc)))).map fun f =>
        (f.setupResult (heap.tcName tc)).verdict
  | .test now tc tfun i => some ((testCode heap tc tfun i now).verdict cfg (heap.tcName tc))

theorem TestCode.Reports.verdict {ν : Type} {cfg : Config} {t : TestCode ν} {tcname : CStr}
    {tr : TestResult} (h : t.Reports cfg tcname tr) : tr.verdict = t.verdict cfg tcname := by
  obtain ⟨htc, h⟩ := h
  unfold TestCode.verdict
  cases hf : t.failure cfg with
  | some cf =>
      rw [hf] at h
      obtain ⟨h1, h2, h3, h4, h5⟩ := h
      simp [TestResult.verdict, h1, h2, h3, h4, h5, htc]
  | none =>
      rw [hf] at h
      obtain ⟨h1, h2, h3, h4, h5⟩ := h
      simp [TestResult.verdict, h1, h2, h3, h4, h5, htc]

theorem Outcome.verdict {L : Type → Type} [Lists L] {cfg : Config} {heap : Heap L NestedRun}
    {u : TestUnit} {tr : TestResult}
    (h : Outcome cfg heap (fun tcname t tr => t.Reports cfg tcname tr) u tr) :
    unitVerdict cfg heap u = some tr.verdict := by
  cases u with
  | setup k tc =>
      obtain ⟨f, hf, rfl⟩ := h
      rw [unitVerdict, hf]
      rfl
  | test now tc tfun i => exact congrArg some (TestCode.Reports.verdict h).symm

theorem map_unitVerdict {L : Type → Type} [Lists L] {cfg : Config} {heap : Heap L NestedRun}
    {us : List TestUnit} {rs : List TestResult}
    (h : List.Forall₂ (Outcome cfg heap fun tcname t tr => t.Reports cfg tcname tr) us rs) :
    us.map (unitVerdict cfg heap) = rs.map fun tr => some tr.verdict := by
  induction h with
  | nil => rfl
  | cons h _ ih => rw [List.map_cons, List.map_cons, ih, h.verdict]

/-- Results of the same kinds are counted alike. -/
theorem Counted.stats_eq {stats stats' : TestStats} {rs rs' : List TestResult}
    (h : Counted stats rs) (h' : Counted stats' rs')
    (hv : rs.map TestResult.verdict = rs'.map TestResult.verdict) : stats = stats' := by
  have hcount : ∀ k : TestResultType,
      rs.countP (fun tr => tr.rtype = k) = rs'.countP (fun tr => tr.rtype = k) := fun k => by
    have hmap : ∀ l : List TestResult, l.countP (fun tr => tr.rtype = k) =
        (l.map TestResult.verdict).countP (fun v => v.rtype = k) := fun l => by
      rw [List.countP_map]
      rfl
    rw [hmap, hmap, hv]
  have hlen : rs.length = rs'.length := by simpa using congrArg List.length hv
  obtain ⟨n, f, e⟩ := stats
  obtain ⟨n', f', e'⟩ := stats'
  have h1 := h.nChecked
  have h2 := h.nFailed
  have h3 := h.nErrors
  have h1' := h'.nChecked
  have h2' := h'.nFailed
  have h3' := h'.nErrors
  simp only at h1 h2 h3 h1' h2' h3'
  rw [h1, h2, h3, h1', h2', h3', hcount, hcount, hlen]

section

variable {x : Ctx} {s : St CkList UInt8 NestedRun} {a : RunArgs} {tags : TCaseId → Option CStr}
  (hs : Legible x.cfg s.proc) (h2 : s.proc.sendFile2 = none) (hlive : s.proc.killIn = none)
  (htags : ∀ tc, (s.heap.lists (.tags tc)).elems = tagStringToList (tags tc))
  (hctx : ∀ c, Limited x.cfg.maxMsg [.ctx c]) (hkill : ∀ now, x.env.kill now = none)
  (hd : ∀ now, 0 ≤ (testDuration x now).toInt)
  (hfix : ∀ tc, .tcase tc ∈ plan (effectiveArgs x.env a) s.heap tags →
    PlainFixtures x.cfg s.heap tc)
  (htests : ∀ tc, .tcase tc ∈ plan (effectiveArgs x.env a) s.heap tags →
    OrdinaryTests x.cfg s.heap tc)
include hs h2 hlive htags hctx hkill hd hfix htests

/-- The verdicts of a run of plain code are read off the code, in both modes. -/
theorem plain_verdicts :
    ∃ s', srunnerRunTagged x (runNested x) a s = .ok () s' ∧
      (Counted s.sr.stats s.sr.resultlst.elems → Counted s'.sr.stats s'.sr.resultlst.elems) ∧
      ∃ rs, s'.sr.resultlst.elems = s.sr.resultlst.elems ++ rs ∧
        (planUnits s.heap (s.now.tcrun, false) (plan (effectiveArgs x.env a) s.heap tags)).map
          (unitVerdict x.cfg s.heap) = rs.map fun tr => some tr.verdict := by
  obtain ⟨s', hrun, hcount, rs, hrs, hu⟩ := srunnerRunTagged_outcomes_code (a := a) hs h2 hlive
    htags hctx hfix fun tc htc H hH => tests_reported hctx hkill hd (forkStatusOf_cases _ _)
      (hH.ordinaryTests (htests tc htc))
  exact ⟨s', hrun, hcount, rs, hrs, map_unitVerdict hu⟩

/-- **Whole runs agree in both modes.**  A run of plain code, of which no unchecked teardown
fails, records the same verdicts with forking and without, and counts them alike. -/
theorem modes_agree (hcount : Counted s.sr.stats s.sr.resultlst.elems) :
    ∃ s₁ s₂ rs₁ rs₂, srunnerRunTagged x (runNested x) a (s.withFork .fork) = .ok () s₁ ∧
      srunnerRunTagged x (runNested x) a (s.withFork .nofork) = .ok () s₂ ∧
      s₁.sr.resultlst.elems = s.sr.resultlst.elems ++ rs₁ ∧
      s₂.sr.resultlst.elems = s.sr.resultlst.elems ++ rs₂ ∧
      rs₁.map TestResult.verdict = rs₂.map TestResult.verdict ∧ s₁.sr.stats = s₂.sr.stats := by
  obtain ⟨s₁, hrun₁, hcount₁, rs₁, hrs₁, hv₁⟩ := plain_verdicts (x := x) (s := s.withFork .fork)
    (a := a) ⟨hs.file1, hs.file2⟩ h2 hlive htags hctx hkill hd hfix htests
  obtain ⟨s₂, hrun₂, hcount₂, rs₂, hrs₂, hv₂⟩ := plain_verdicts (x := x) (s := s.withFork .nofork)
    (a := a) ⟨hs.file1, hs.file2⟩ h2 hlive htags hctx hkill hd hfix htests
  have hv : rs₁.map TestResult.verdict = rs₂.map TestResult.verdict := by
    have hsome : (rs₁.map TestResult.verdict).map some = (rs₂.map TestResult.verdict).map some := by
      rw [List.map_map, List.map_map]
      exact hv₁.symm.trans hv₂
    exact List.map_injective_iff.mpr (fun _ _ h => Option.some.inj h) hsome
  refine ⟨s₁, s₂, rs₁, rs₂, hrun₁, hrun₂, hrs₁, hrs₂, hv,
    (hcount₁ hcount).stats_eq (hcount₂ hcount) ?_⟩
  rw [hrs₁, hrs₂, List.map_append, List.map_append, hv]
  rfl

end

theorem Sample.plainFun_nil : PlainFun Sample.ctx.cfg ([] : List (Act NestedRun)) :=
  ⟨.nil, fun _ hm => absurd hm List.not_mem_nil⟩

theorem Sample.ordinaryTests_passFail (fstat : ForkStatus) :
    OrdinaryTests Sample.ctx.cfg
      (Sample.start (Sample.oneCase [Sample.test [], Sample.test [Sample.fail]]) fstat).heap 0 where
  plain tfun htfun i now := by
    rw [Sample.oneCase_tests] at htfun
    have hbody : PlainFun Sample.ctx.cfg (tfun.ttest.fn i now) ∧ tfun.ttest.loc = Sample.loc := by
      simp only [List.mem_cons, List.not_mem_nil, or_false] at htfun
      obtain rfl | rfl := htfun
      · exact ⟨Sample.plainFun_nil, rfl⟩
      · exact ⟨Sample.plainFun_fail, rfl⟩
    refine ⟨fun _ hf => absurd hf List.not_mem_nil, hbody.1,
      fun _ hf => absurd hf List.not_mem_nil, ?_, Sample.limited_ctx⟩
    refine List.forall_mem_cons.mpr ⟨Sample.limited_ctx .test _ List.mem_cons_self, ?_⟩
    show Limited _ [tfun.ttest.loc.msg]
    rw [hbody.2]
    decide +kernel
  ordinary tfun htfun := by
    rw [Sample.oneCase_tests] at htfun
    simp only [List.mem_cons, List.not_mem_nil, or_false] at htfun
    obtain rfl | rfl := htfun <;> exact ⟨rfl, rfl⟩

/-- A test that passes and one that fails, in both modes. -/
theorem modes_agree_passFail :
    ∃ s₁ s₂ rs₁ rs₂,
      srunnerRunTagged Sample.ctx (runNested Sample.ctx) Sample.args
        ((Sample.start (Sample.oneCase [Sample.test [], Sample.test [Sample.fail]]) .fork).withFork
          .fork) = .ok () s₁ ∧
      srunnerRunTagged Sample.ctx (runNested Sample.ctx) Sample.args
        ((Sample.start (Sample.oneCase [Sample.test [], Sample.test [Sample.fail]]) .fork).withFork
          .nofork) = .ok () s₂ ∧
      s₁.sr.resultlst.elems = [] ++ rs₁ ∧ s₂.sr.resultlst.elems = [] ++ rs₂ ∧
      rs₁.map TestResult.verdict = rs₂.map TestResult.verdict ∧ s₁.sr.stats = s₂.sr.stats :=
  modes_agree (x := Sample.ctx) (a := Sample.args)
    (s := Sample.start (Sample.oneCase [Sample.test [], Sample.test [Sample.fail]]) .fork)
    (legible_of_closed rfl rfl) rfl rfl (Sample.elems_tags _ .fork) Sample.limited_ctx
    (fun _ => rfl) Sample.duration_nonneg
    (fun tc htc => by
      rw [Sample.eq_zero_of_mem_plan htc]
      exact Sample.oneCase_plainFixtures _ .fork)
    (fun tc htc => by
      rw [Sample.eq_zero_of_mem_plan htc]
      exact Sample.ordinaryTests_passFail .fork)
    counted_nil

end LibCheck
