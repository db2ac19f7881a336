import LibCheck.Logging

/-!
# LibCheck.Delivery

Whether every result reaches the logs, and whether the loggers are told of
every test.

* `RunLogged` — what a run has logged and recorded.
* `results_logged` — the results that are delivered are those that are
  recorded if and only if no test case is abandoned: the result of an
  unchecked setup is recorded and not logged.
* `events_wellBracketed` — the events are as expected if and only if no test
  case with tests is abandoned for the failure of another one.
-/

namespace LibCheck

open Prog

/-! ## runs -/

section

variable {x : Ctx} {s s' : St List SendMsg NestedRun}

/-- The message file of a run is empty at first. -/
theorem setupPipe_pending (h2 : s.proc.sendFile2 = none) (h : setupPipe s = .ok () s') :
    s'.proc.sendFile1.isSome ∧ s'.proc.pending = false := by
  cases h1 : s.proc.sendFile1 with
  | none =>
      simp only [setupPipe, bind_apply, read_apply, h1, Option.isNone_none, ↓reduceIte,
        update_apply] at h
      cases h
      exact ⟨rfl, by simp [Proc.pending, Proc.getPipe, St.onProc, Proc.openFile1, h2]⟩
  | some f =>
      simp only [setupPipe, bind_apply, read_apply, h1, h2, Option.isNone_some, Option.isNone_none,
        ↓reduceIte, update_apply, Bool.false_eq_true] at h
      cases h
      exact ⟨by simp [St.onProc, Proc.openFile2, h1], rfl⟩

/-- Closing the log files changes nothing that is modelled but the pointer to the
list of loggers. -/
theorem srunnerEndLogging_ok (h : srunnerEndLogging x s = .ok () s') :
    ∃ s1, srunnerSendEvt x .null .endlogSr s = .ok () s1 ∧ s'.proc = s1.proc ∧
      s'.sr = { s1.sr with loglst := false } := by
  obtain ⟨_, s1, hevt, h⟩ := bind_eq_ok.mp h
  obtain ⟨_, s2, hclose, h⟩ := bind_eq_ok.mp h
  have hsame : s2 = s1 := by
    have hkeeps : Keeps (fun s : St List SendMsg NestedRun => s)
        (forLogs x fun _ => pure (none : Option Unit)) := by
      refine Keeps.bind (Keeps.read _) fun _ => Keeps.ite ?_ (Keeps.throw _)
      intro c t ht
      exact Maintains.findSomeM (fun _ _ => Maintains.pure none) t ht
    exact hkeeps.of_ok hclose
  rw [hsame] at h
  cases h
  exact ⟨s1, hevt, rfl, rfl⟩

/-- The state in which a run begins with its suites. -/
structure EntersSuites (x : Ctx) (a : RunArgs) (s s1 : St List SendMsg NestedRun) : Prop where
  cases : SameCases s.heap s1.heap
  loggers : s1.heap.lists .loglst = registered x s.sr a.printMode
  runner : s1.sr = { s.sr with loglst := true }
  now : s1.now = s.now
  file1 : s1.proc.sendFile1.isSome
  pending : s1.proc.pending = false
  events : ∀ lg ∈ registered x s.sr a.printMode, eventsOf lg x.lvl s1.proc.hist =
    eventsOf lg x.lvl s.proc.hist ++ [.log .initlogSr .null, .log .startSr .null]
  numbers : ∀ lg ∈ registered x s.sr a.printMode, lg.lfun = .tapLfun →
    s1.proc.numTestsRun = 0 ∧ tapNumbers lg x.lvl s1.proc.hist = tapNumbers lg x.lvl s.proc.hist
  seen : ∀ {γ : Type} (g : Obs → Option γ),
    (∀ c : LogCall, c.evt ∈ [ClEvent.initlogSr, .startSr, .endSr, .endlogSr] → g (.log c) = none) →
      shown g x.lvl s1.proc.hist = shown g x.lvl s.proc.hist

/-- A run ends after its suites. -/
structure LeavesSuites (x : Ctx) (lgs : List Log) (s s' : St List SendMsg NestedRun) : Prop where
  runner : s'.sr = { s.sr with loglst := false }
  events : ∀ lg ∈ lgs, eventsOf lg x.lvl s'.proc.hist =
    eventsOf lg x.lvl s.proc.hist ++ [.log .endSr .null, .log .endlogSr .null]
  numbers : ∀ lg ∈ lgs, lg.lfun = .tapLfun → tapNumbers lg x.lvl s'.proc.hist =
    tapNumbers lg x.lvl s.proc.hist ++ [(.endlogSr, s.proc.numTestsRun)]
  seen : ∀ {γ : Type} (g : Obs → Option γ),
    (∀ c : LogCall, c.evt ∈ [ClEvent.initlogSr, .startSr, .endSr, .endlogSr] → g (.log c) = none) →
      shown g x.lvl s'.proc.hist = shown g x.lvl s.proc.hist

theorem EntersSuites.tags {s1 : St List SendMsg NestedRun} {a : RunArgs}
    {tags : TCaseId → Option CStr}
    (h : EntersSuites x a s s1) (htags : ∀ tc, s.heap.lists (.tags tc) = tagStringToList (tags tc))
    (tc : TCaseId) : s1.heap.lists (.tags tc) = tagStringToList (tags tc) :=
  (h.cases.2.2 (.tags tc) (fun he => nomatch he) (fun _ he => nomatch he)).trans (htags tc)

/-- An event that is not shown. -/
theorem srunnerSendEvt_unseen {γ : Type} {evt : ClEvent} {obj : LogObj} {g : Obs → Option γ}
    (hg : ∀ c : LogCall, c.evt = evt → g (.log c) = none)
    (h : srunnerSendEvt x obj evt s = .ok () s') :
    shown g x.lvl s'.proc.hist = shown g x.lvl s.proc.hist := by
  obtain ⟨-, -, rfl⟩ := srunnerSendEvt_ok h
  exact shown_foldl_notify_of_none (fun _ _ _ _ _ => hg _ rfl) _

/-- The TAP logger at an event. -/
theorem srunnerSendEvt_tapNumbers {evt : ClEvent} {obj : LogObj} {lgs : List Log} {lg : Log}
    (hlgs : s.heap.lists .loglst = lgs) (hnd : (lgs.map Log.lfun).Nodup) (hlg : lg ∈ lgs)
    (htap : lg.lfun = .tapLfun) (h : srunnerSendEvt x obj evt s = .ok () s') :
    s'.proc.numTestsRun = tapCount evt s.proc.numTestsRun ∧
      tapNumbers lg x.lvl s'.proc.hist = tapNumbers lg x.lvl s.proc.hist ++
        if evt = .endT ∨ evt = .endlogSr then [(evt, tapCount evt s.proc.numTestsRun)] else [] := by
  obtain ⟨-, -, rfl⟩ := srunnerSendEvt_ok h
  rw [hlgs]
  exact tapNumbers_foldl_notify htap hlg hnd x evt obj s.sr.stats s.sr.resultlst s.proc

/-- A run that has started begins with its suites. -/
theorem entersSuites {a : RunArgs} {s1 s2 s3 : St List SendMsg NestedRun}
    (h2 : s.proc.sendFile2 = none) (hsetup : setupPipe (runStart x s) = .ok () s1)
    (hlog : srunnerInitLogging x a.printMode s1 = .ok () s2)
    (hstart : logSrunnerStart x s2 = .ok () s3) : EntersSuites x a s s3 := by
  have hmem1 : s1.memory = (runStart x s).memory := keeps_setupPipe.of_ok hsetup
  have hhist1 : s1.proc.hist = s.proc.hist := congrArg Prod.fst (keeps_hist_setupPipe.of_ok hsetup)
  obtain ⟨hfile1, hp1⟩ := setupPipe_pending (s := runStart x s) h2 hsetup
  have hsr1 : s1.sr = s.sr := congrArg (fun m => m.2.1) hmem1
  have hheap1 : s1.heap = s.heap := congrArg (fun m => m.1) hmem1
  have hnow1 : s1.now = s.now := congrArg (fun m => m.2.2) hmem1
  rw [srunnerInitLogging_apply, hsr1] at hlog
  have hnd := nodup_registered x s.sr a.printMode
  generalize hlgs : registered x s.sr a.printMode = lgs at hlog hnd
  have hm1 : Midrun x (logging lgs s1).heap (forkStatusOf x.env s.sr.fstat) (logging lgs s1) :=
    ⟨rfl, hfile1, congrArg (fun r => forkStatusOf x.env r.fstat) hsr1⟩
  obtain ⟨hm2, hnow2, hp2⟩ := srunnerSendEvt_frame hm1 hlog
  obtain ⟨hm3, hnow3, hp3⟩ := srunnerSendEvt_frame hm2 hstart
  have hlgs1 : (logging lgs s1).heap.lists .loglst = lgs := St.lists_setList_self ..
  have hlgs2 : s2.heap.lists .loglst = lgs := hm2.heap ▸ hlgs1
  obtain ⟨hsr2, hseen2⟩ := srunnerSendEvt_seen hlgs1 hnd (by decide) hlog
  obtain ⟨hsr3, hseen3⟩ := srunnerSendEvt_seen hlgs2 hnd (by decide) hstart
  exact
    { cases := by
        have hrefl : SameCases s.heap s1.heap := hheap1 ▸ ⟨rfl, rfl, fun _ _ _ => rfl⟩
        rw [hm3.heap]
        exact hrefl.setList .loglst lgs (.inl rfl)
      loggers := by
        rw [hm3.heap, hlgs]
        exact hlgs1
      runner := by
        rw [hsr3, hsr2, ← hsr1]
        rfl
      now := (hnow3.trans hnow2).trans hnow1
      file1 := hm3.file1
      pending := (hp3.trans hp2).trans hp1
      events := fun lg hlg => by
        rw [hlgs] at hlg
        have hhist : (logging lgs s1).proc.hist = s.proc.hist := hhist1
        rw [(hseen3 lg hlg).1, (hseen2 lg hlg).1, hhist, List.append_assoc]
        rfl
      numbers := fun lg hlg htap => by
        -- `CLINITLOG_SR` sets the counter to zero
        rw [hlgs] at hlg
        obtain ⟨hnum2, htap2⟩ := srunnerSendEvt_tapNumbers hlgs1 hnd hlg htap hlog
        obtain ⟨hnum3, htap3⟩ := srunnerSendEvt_tapNumbers hlgs2 hnd hlg htap hstart
        have hhist : (logging lgs s1).proc.hist = s.proc.hist := hhist1
        refine ⟨hnum3.trans hnum2, ?_⟩
        rw [htap3, htap2, hhist, if_neg (by decide), if_neg (by decide), List.append_nil,
          List.append_nil]
      seen := fun g hg => by
        have hseen2 := srunnerSendEvt_unseen (g := g) (fun c hc => hg c (by simp [hc])) hlog
        have hseen3 := srunnerSendEvt_unseen (g := g) (fun c hc => hg c (by simp [hc])) hstart
        rw [hseen3, hseen2]
        exact congrArg (shown g x.lvl) hhist1 }

/-- A run that has been through its suites ends. -/
theorem leavesSuites {lgs : List Log} {s1 s2 s3 : St List SendMsg NestedRun}
    (hlgs : s.heap.lists .loglst = lgs) (hnd : (lgs.map Log.lfun).Nodup)
    (hlogend : logSrunnerEnd x s = .ok () s1) (hendlog : srunnerEndLogging x s1 = .ok () s2)
    (htear : teardownPipe s2 = .ok () s3) : LeavesSuites x lgs s (runFinish s3) := by
  obtain ⟨t, hevt, hproc2, hsr2⟩ := srunnerEndLogging_ok hendlog
  have hlgs1 : s1.heap.lists .loglst = lgs := by
    obtain ⟨-, -, rfl⟩ := srunnerSendEvt_ok hlogend
    exact hlgs
  obtain ⟨hsr1, hseen1⟩ := srunnerSendEvt_seen hlgs hnd (by decide) hlogend
  obtain ⟨hsrt, hseent⟩ := srunnerSendEvt_seen hlgs1 hnd (by decide) hevt
  have hmem3 : s3.memory = s2.memory := keeps_teardownPipe.of_ok htear
  have hhist : (runFinish s3).proc.hist = t.proc.hist :=
    (congrArg Prod.fst (keeps_hist_teardownPipe.of_ok htear)).trans (congrArg Proc.hist hproc2)
  exact
    { runner := by
        show s3.sr = _
        rw [show s3.sr = s2.sr from congrArg (fun m => m.2.1) hmem3, hsr2, hsrt, hsr1]
      events := fun lg hlg => by
        rw [hhist, (hseent lg hlg).1, (hseen1 lg hlg).1, List.append_assoc]
        rfl
      numbers := fun lg hlg htap => by
        obtain ⟨hnum1, htap1⟩ := srunnerSendEvt_tapNumbers hlgs hnd hlg htap hlogend
        obtain ⟨-, htapt⟩ := srunnerSendEvt_tapNumbers hlgs1 hnd hlg htap hevt
        rw [hhist, htapt, htap1, hnum1, if_neg (by decide), if_pos (.inr rfl), List.append_nil]
        rfl
      seen := fun g hg => by
        have hseen1 := srunnerSendEvt_unseen (g := g) (fun c hc => hg c (by simp [hc])) hlogend
        have hseent := srunnerSendEvt_unseen (g := g) (fun c hc => hg c (by simp [hc])) hevt
        rw [hhist, hseent, hseen1] }

/-- A run that returns runs its suites between the events of the runner. -/
theorem srunnerRunTagged_suites {call : NestedRun → RunM List SendMsg NestedRun Unit} {a : RunArgs}
    (h2 : s.proc.sendFile2 = none) (h : srunnerRunTagged x call a s = .ok () s') :
    ∃ s1 s2, srunnerIterateSuites x call (effectiveArgs x.env a) s1 = .ok () s2 ∧
      EntersSuites x a s s1 ∧
      (s2.heap.lists .loglst = registered x s.sr a.printMode →
        LeavesSuites x (registered x s.sr a.printMode) s2 s') := by
  obtain ⟨s1, s2, s3, s4, s5, s6, s7, hsetup, hlog, hstart, hsuites, hlogend, hendlog,
      htear, rfl⟩ :=
    srunnerRunTagged_ok h
  exact ⟨s3, s4, hsuites, entersSuites h2 hsetup hlog hstart,
    fun hlgs => leavesSuites hlgs (nodup_registered ..) hlogend hendlog htear⟩

/-- What a run logs. -/
structure RunLogged {L : Type → Type} {β : Type} [Lists L] (x : Ctx) (lgs : List Log)
    (es : List Event) (rs ds : List TestResult) (s s' : St L β NestedRun) : Prop where
  results : Lists.elems s'.sr.resultlst = Lists.elems s.sr.resultlst ++ rs
  checked : s'.sr.stats.nChecked = s.sr.stats.nChecked + rs.length
  events : ∀ lg ∈ lgs, eventsOf lg x.lvl s'.proc.hist = eventsOf lg x.lvl s.proc.hist ++
    ([.log .initlogSr .null, .log .startSr .null] ++ es ++
      [.log .endSr .null, .log .endlogSr .null])
  delivered : ∀ lg ∈ lgs, delivered lg x.lvl s'.proc.hist = delivered lg x.lvl s.proc.hist ++ ds
  accepted : ∀ lg ∈ lgs, ∀ tr ∈ ds, lfunStop lg.lfun (.result tr) = none

/-- The loop over the suites. -/
theorem srunnerIterateSuites_logged {lgs : List Log} {tags : TCaseId → Option CStr}
    {a : RunArgs} (hlgs : s.heap.lists .loglst = lgs) (hnd : (lgs.map Log.lfun).Nodup)
    (hfile : s.proc.sendFile1.isSome)
    (htags : ∀ tc, s.heap.lists (.tags tc) = tagStringToList (tags tc))
    (h : srunnerIterateSuites x (runNested x) a s = .ok () s') :
    s'.heap.lists .loglst = lgs ∧ ∃ rs ds, ds.Sublist rs ∧
      rs.length = ds.length + lost s.heap (s.now.tcrun, s.proc.pending) (plan a s.heap tags) ∧
      Logged x lgs (planEvents s.heap (s.now.tcrun, s.proc.pending) (plan a s.heap tags)) rs ds
        s s' ∧
      (forkStatusOf x.env s.sr.fstat = .nofork →
        (∀ t ∈ foreseen s.heap (s.now.tcrun, s.proc.pending) (plan a s.heap tags), t.2.1 = false) →
          List.Forall₂ (Attributed s.heap)
            (planUnits s.heap (s.now.tcrun, s.proc.pending) (plan a s.heap tags)) rs) := by
  have hne : ∀ g, LRef.loglst ≠ .tagLst g := fun _ he => nomatch he
  have hsame : SameCases s.heap (loadTags a s).heap :=
    SameCases.loadTags (H := s.heap) ⟨rfl, rfl, fun _ _ _ => rfl⟩ a
  have hlgs0 : (loadTags a s).heap.lists .loglst = lgs := (lists_loadTags hne a s).trans hlgs
  rw [srunnerIterateSuites_apply] at h
  cases hres : forList x .slst (fun su => do
      iterateSuite x (runNested x) a su
      pure (none : Option Unit)) (loadTags a s) with
  | error e s1 =>
      rw [hres] at h
      cases h
  | ok b s1 =>
      rw [hres] at h
      cases h
      have hP : Composes (Ran x lgs (loadTags a s).heap (forkStatusOf x.env s.sr.fstat)) :=
        composes_ran
      have hdoes := does_suites (Does.sequences hP)
        (I := Midrun x (loadTags a s).heap (forkStatusOf x.env s.sr.fstat)) (fun _ hm => hm.heap)
        (tagged_loadTags htags) (does_logSuiteStart hlgs0 hnd) (does_logSuiteEnd hlgs0 hnd)
        fun tc _ => does_srunnerRunTcase hlgs0 hnd
      obtain ⟨hm, -, rs, ds, hsub, hlen, hl, hu⟩ := hdoes (loadTags a s) b s1 ⟨rfl, hfile, rfl⟩ hres
      rw [hsame.plan, hsame.lost] at hlen
      rw [hsame.plan, hsame.planEvents] at hl
      rw [hsame.plan, hsame.foreseen, hsame.planUnits] at hu
      have hload : Logged x lgs [] [] [] s (loadTags a s) := .of_same rfl rfl
      have hfree : Logged x lgs [] [] [] s1 (freeTags s1) := .of_same rfl rfl
      have hall := (hload.trans hl).trans hfree
      simp only [List.append_nil, List.nil_append] at hall
      refine ⟨?_, rs, ds, hsub, hlen, hall, fun hmode hnone =>
        (hu hmode hnone).imp fun _ _ => hsame.attributed⟩
      rw [lists_freeTags hne, hm.heap]
      exact hlgs0

/-- What is logged before, in and after the suites. -/
theorem RunLogged.of_parts {a : RunArgs} {s1 s2 : St List SendMsg NestedRun} {es : List Event}
    {rs ds : List TestResult} (hin : EntersSuites x a s s1)
    (hl : Logged x (registered x s.sr a.printMode) es rs ds s1 s2)
    (hout : LeavesSuites x (registered x s.sr a.printMode) s2 s') :
    RunLogged x (registered x s.sr a.printMode) es rs ds s s' where
  results := by
    show s'.sr.resultlst = s.sr.resultlst ++ rs
    rw [hout.runner, hl.results, hin.runner]
  checked := by rw [hout.runner, hl.checked, hin.runner]
  events lg hlg := by
    rw [hout.events lg hlg, hl.events lg hlg, hin.events lg hlg]
    simp only [List.append_assoc]
  delivered lg hlg := by
    have hnone : ∀ c : LogCall, c.evt ∈ [ClEvent.initlogSr, .startSr, .endSr, .endlogSr] →
        (Obs.log c).result? lg = none := by
      intro c hc
      refine if_neg fun he => ?_
      rw [he.2] at hc
      exact absurd hc (by decide)
    rw [LibCheck.delivered, hout.seen _ hnone, ← LibCheck.delivered, hl.delivered lg hlg,
      LibCheck.delivered, hin.seen _ hnone, LibCheck.delivered]
  accepted := hl.accepted

/-- What a run of the abstract machine logs. -/
theorem runLogged_srunnerRunTagged {tags : TCaseId → Option CStr} {a : RunArgs}
    (h2 : s.proc.sendFile2 = none)
    (htags : ∀ tc, s.heap.lists (.tags tc) = tagStringToList (tags tc))
    (h : srunnerRunTagged x (runNested x) a s = .ok () s') :
    ∃ rs ds, ds.Sublist rs ∧
      rs.length = ds.length +
        lost s.heap (s.now.tcrun, false) (plan (effectiveArgs x.env a) s.heap tags) ∧
      RunLogged x (registered x s.sr a.printMode)
        (planEvents s.heap (s.now.tcrun, false) (plan (effectiveArgs x.env a) s.heap tags)) rs ds
        s s' ∧
      (forkStatusOf x.env s.sr.fstat = .nofork →
        (∀ t ∈ foreseen s.heap (s.now.tcrun, false) (plan (effectiveArgs x.env a) s.heap tags),
          t.2.1 = false) →
        List.Forall₂ (Attributed s.heap)
          (planUnits s.heap (s.now.tcrun, false)
            (plan (effectiveArgs x.env a) s.heap tags)) rs) := by
  obtain ⟨s1, s2, hsuites, hin, hout⟩ := srunnerRunTagged_suites h2 h
  obtain ⟨hlgs2, rs, ds, hsub, hlen, hl, hu⟩ := srunnerIterateSuites_logged hin.loggers
    (nodup_registered ..) hin.file1 (hin.tags htags) hsuites
  have hmode : forkStatusOf x.env s1.sr.fstat = forkStatusOf x.env s.sr.fstat := by rw [hin.runner]
  rw [hin.cases.plan, hin.cases.lost, hin.now, hin.pending] at hlen
  rw [hin.cases.plan, hin.cases.planEvents, hin.now, hin.pending] at hl
  rw [hin.cases.plan, hin.cases.foreseen, hin.cases.planUnits, hin.now, hin.pending, hmode] at hu
  exact ⟨rs, ds, hsub, hlen, .of_parts hin hl (hout hlgs2), fun hm hnone =>
    (hu hm hnone).imp fun _ _ => hin.cases.attributed⟩

/-- The numbers in the TAP log of a run of the abstract machine: no run that logs TAP is made
in its process. -/
theorem tapNumbers_srunnerRunTagged {a : RunArgs} {lg : Log} (h2 : s.proc.sendFile2 = none)
    (hlg : lg ∈ registered x s.sr a.printMode) (htap : lg.lfun = .tapLfun)
    (h : srunnerRunTagged x (runSparing x fun c => !c.logsTap) a s = .ok () s') :
    ∃ ds, delivered lg x.lvl s'.proc.hist = delivered lg x.lvl s.proc.hist ++ ds ∧
      tapNumbers lg x.lvl s'.proc.hist = tapNumbers lg x.lvl s.proc.hist ++
        (((List.range' 1 ds.length).map fun n => (.endT, n)) ++ [(.endlogSr, ds.length)]) := by
  obtain ⟨s1, s2, hsuites, hin, hout⟩ := srunnerRunTagged_suites h2 h
  have hnone : ∀ c : LogCall, c.evt ∈ [ClEvent.initlogSr, .startSr, .endSr, .endlogSr] →
      (Obs.log c).result? lg = none := by
    intro c hc
    refine if_neg fun he => ?_
    rw [he.2] at hc
    exact absurd hc (by decide)
  obtain ⟨hnum1, htap1⟩ := hin.numbers lg hlg htap
  have hcount1 : TapCounted x (registered x s.sr a.printMode) lg s.proc.hist [] s1 :=
    ⟨hin.loggers, (hin.seen _ hnone).trans (List.append_nil _).symm, hnum1,
      htap1.trans (List.append_nil _).symm⟩
  have hsteps : Indifferent x Prod.fst fun s' =>
      ∃ ds, TapCounted x (registered x s.sr a.printMode) lg s.proc.hist ds s' :=
    indifferent_tapCounted htap hlg (nodup_registered ..)
  have hcalm : ∀ c : NestedRun, (!c.logsTap) = true →
      Keeps (fun s => s.proc.numTestsRun) (runNested x c : RunM List SendMsg NestedRun Unit) :=
    fun c hc => keeps_numTestsRun_runNested (by simpa using hc)
  obtain ⟨ds, hcount2⟩ := Maintains.of_ok (hsteps.srunnerIterateSuites hcalm _)
      ⟨[], hcount1⟩ hsuites
  have hend := hout hcount2.loggers
  refine ⟨ds, (hend.seen _ hnone).trans hcount2.delivered, ?_⟩
  rw [hend.numbers lg hlg htap, hcount2.numbers, hcount2.count, List.append_assoc]

end

/-! ## the code -/

/-- What a run of the code logs. -/
theorem runLogged_of_ok {x : Ctx} {s s' : St CkList UInt8 NestedRun}
    {tags : TCaseId → Option CStr} {a : RunArgs} (hs : Legible x.cfg s.proc)
    (h2 : s.proc.sendFile2 = none)
    (htags : ∀ tc, (s.heap.lists (.tags tc)).elems = tagStringToList (tags tc))
    (h : srunnerRunTagged x (runNested x) a s = .ok () s') :
    ∃ rs ds, ds.Sublist rs ∧
      rs.length = ds.length +
        lost s.heap (s.now.tcrun, false) (plan (effectiveArgs x.env a) s.heap tags) ∧
      RunLogged x (registered x s.sr a.printMode)
        (planEvents s.heap (s.now.tcrun, false) (plan (effectiveArgs x.env a) s.heap tags)) rs ds
        s s' ∧
      (forkStatusOf x.env s.sr.fstat = .nofork →
        (∀ t ∈ foreseen s.heap (s.now.tcrun, false) (plan (effectiveArgs x.env a) s.heap tags),
          t.2.1 = false) →
        List.Forall₂ (Attributed s.heap)
          (planUnits s.heap (s.now.tcrun, false)
            (plan (effectiveArgs x.env a) s.heap tags)) rs) := by
  obtain ⟨t, hst⟩ := hs.exists_stRel
  obtain ⟨t', ht', hst'⟩ :=
    (sim_srunnerRunTagged (x := x) (keeps_runNested _) (sim_runNested _) a).of_ok hst h
  cases hst with
  | mk hfile1 hfile2 =>
      cases hst' with
      | mk _ _ =>
          have hsame : SameCases s.heap s.heap.abs := ⟨rfl, rfl, fun _ _ _ => rfl⟩
          rw [h2] at hfile2
          cases hfile2
          obtain ⟨rs, ds, hsub, hlen, hrun, hu⟩ := runLogged_srunnerRunTagged rfl htags ht'
          have hplan : plan (effectiveArgs x.env a) s.heap.abs tags =
            plan (effectiveArgs x.env a) s.heap tags := hsame.plan _ tags
          refine ⟨rs, ds, hsub, ?_, ?_, ?_⟩
          · rw [← hsame.lost, ← hplan]
            exact hlen
          · rw [← hsame.planEvents, ← hplan]
            exact ⟨hrun.results, hrun.checked, hrun.events, hrun.delivered, hrun.accepted⟩
          · intro hmode hnone
            rw [← hsame.foreseen, ← hplan] at hnone
            rw [← hsame.planUnits, ← hplan]
            exact (hu hmode hnone).imp fun _ _ => hsame.attributed

/-- The numbers in a TAP log, if no run that logs TAP is made in the process of the runner. -/
theorem tapNumbers_of_ok {x : Ctx} {s s' : St CkList UInt8 NestedRun} {a : RunArgs} {lg : Log}
    (hs : Legible x.cfg s.proc) (h2 : s.proc.sendFile2 = none)
    (hlg : lg ∈ registered x s.sr a.printMode) (htap : lg.lfun = .tapLfun)
    (hgood : ∀ t, srunnerRunTagged x (runSparing x fun c => !c.logsTap) a s ≠ .error .brokenOff t)
    (h : srunnerRunTagged x (runNested x) a s = .ok () s') :
    ∃ ds, delivered lg x.lvl s'.proc.hist = delivered lg x.lvl s.proc.hist ++ ds ∧
      tapNumbers lg x.lvl s'.proc.hist = tapNumbers lg x.lvl s.proc.hist ++
        (((List.range' 1 ds.length).map fun n => (.endT, n)) ++ [(.endlogSr, ds.length)]) := by
  obtain ⟨t, hst⟩ := hs.exists_stRel
  obtain ⟨t', ht', hst'⟩ := srunnerRunTagged_runSparing hst hgood h
  cases hst with
  | mk hfile1 hfile2 =>
      cases hst' with
      | mk _ _ =>
          rw [h2] at hfile2
          cases hfile2
          exact tapNumbers_srunnerRunTagged rfl hlg htap ht'

/-- What a logger with a file writes for a result is one entry. -/
theorem text_testEnd {x : Ctx} {c : LogCall} {tr : TestResult} (clock : XmlClock)
    (hevt : c.evt = .endT) (hobj : c.obj = .result tr)
    (hlfun : c.log.lfun ∈ [LFun.lfileLfun, .xmlLfun, .tapLfun])
    (hstop : lfunStop c.log.lfun (.result tr) = none) : ∃ entry, c.text x clock = [entry] := by
  simp only [List.mem_cons, List.not_mem_nil, or_false] at hlfun
  rcases hlfun with hl | hl | hl
  · have hverbose : resolvePrintmode x.env .verbose = .verbose := if_neg (by decide)
    have hprinted : (PrintOutput.verbose.rank ≤ PrintOutput.verbose.rank ∧ tr.rtype = .pass) ∨
        (tr.rtype ≠ .pass ∧ PrintOutput.normal.rank ≤ PrintOutput.verbose.rank) := by
      by_cases hp : tr.rtype = .pass
      · exact .inl ⟨le_rfl, hp⟩
      · exact .inr ⟨hp, by decide⟩
    simp only [LogCall.text, hl, lfileLfun, hevt, hobj, trFprint, hverbose, if_pos hprinted]
    exact ⟨_, rfl⟩
  · rw [hl, lfunStop] at hstop
    simp only [LogCall.text, hl, xmlLfun, hevt, hobj, trXmlprint]
    cases hr : tr.rtype <;> cases ht : tr.tcname <;> cases hm : tr.msg <;>
      simp [hr, ht, hm, xmlResult] at hstop ⊢
  · simp only [LogCall.text, hl, tapLfun, hevt, hobj]
    exact ⟨_, rfl⟩

/-- **Every result reaches the logs** if and only if no test case is abandoned:
the results that a logger is given with `CLEND_T` are then those that the run
has appended to `sr->resultlst`, and each of them makes one entry in a log.
The TAP logger numbers them from 1 on and ends with their number as its plan,
provided that no run that logs TAP itself is made in the process of the runner. -/
theorem results_logged {x : Ctx} {s s' : St CkList UInt8 NestedRun} {a : RunArgs}
    {tags : TCaseId → Option CStr} (hs : Legible x.cfg s.proc) (h2 : s.proc.sendFile2 = none)
    (htags : ∀ tc, (s.heap.lists (.tags tc)).elems = tagStringToList (tags tc))
    (h : srunnerRunTagged x (runNested x) a s = .ok () s') :
    ∃ rs, s'.sr.resultlst.elems = s.sr.resultlst.elems ++ rs ∧
      srunnerNtestsRun s'.sr = srunnerNtestsRun s.sr + rs.length ∧
      ∀ lg ∈ registered x s.sr a.printMode, ∃ ds,
        delivered lg x.lvl s'.proc.hist = delivered lg x.lvl s.proc.hist ++ ds ∧
        (ds = rs ↔ ∀ c ∈ foreseen s.heap (s.now.tcrun, false)
          (plan (effectiveArgs x.env a) s.heap tags), ¬ abandoned s.heap c.1 c.2.1 c.2.2) ∧
        (∀ tr ∈ ds, ∀ (c : LogCall) (clock : XmlClock), c.log = lg → c.evt = .endT →
          c.obj = .result tr → lg.lfun ∈ [LFun.lfileLfun, .xmlLfun, .tapLfun] →
            ∃ entry, c.text x clock = [entry]) ∧
        ((∀ t, srunnerRunTagged x (runSparing x fun c => !c.logsTap) a s ≠ .error .brokenOff t) →
          lg.lfun = .tapLfun → tapNumbers lg x.lvl s'.proc.hist = tapNumbers lg x.lvl s.proc.hist ++
            (((List.range' 1 ds.length).map fun n => (.endT, n)) ++ [(.endlogSr, ds.length)])) := by
  obtain ⟨rs, ds, hsub, hlen, hrun, -⟩ := runLogged_of_ok hs h2 htags h
  refine ⟨rs, hrun.results, hrun.checked, fun lg hlg => ⟨ds, hrun.delivered lg hlg, ?_, ?_, ?_⟩⟩
  · have hcount : lost s.heap (s.now.tcrun, false) (plan (effectiveArgs x.env a) s.heap tags) = 0 ↔
        ∀ c ∈ foreseen s.heap (s.now.tcrun, false) (plan (effectiveArgs x.env a) s.heap tags),
          ¬ abandoned s.heap c.1 c.2.1 c.2.2 := List.countP_eq_zero
    rw [← hcount]
    constructor
    · rintro rfl
      omega
    · intro h0
      exact hsub.eq_of_length (by omega)
  · intro tr htr c clock hc hevt hobj hlfun
    subst hc
    exact text_testEnd clock hevt hobj hlfun (hrun.accepted _ hlg tr htr)
  · intro hgood htap
    obtain ⟨ds', hds', hnumbers⟩ := tapNumbers_of_ok hs h2 hlg htap hgood h
    rw [hrun.delivered lg hlg] at hds'
    cases List.append_cancel_left hds'
    exact hnumbers

/-- A runner of these test cases that writes a TAP log. -/
def Sample.logged (cases : List (Sample.Case NestedRun)) : St CkList UInt8 NestedRun :=
  let s := Sample.start cases .nofork
  { s with sr := { s.sr with tapFname := some (.lit "t.tap") } }

/-- Its TAP logger. -/
def Sample.tapLog : Log := ⟨.named (.lit "t.tap"), .tapLfun, true, .normal⟩

/-- A test that passes and one that fails. -/
def Sample.passFail : List (Sample.Case NestedRun) :=
  [⟨fun _ => [], [Sample.test [], Sample.test [Sample.fail]], none⟩]

/-- Their results reach the TAP log, with the numbers 1 and 2. -/
theorem results_logged_passFail :
    ∃ s' rs, srunnerRunTagged Sample.ctx (runNested Sample.ctx) Sample.args
        (Sample.logged Sample.passFail) = .ok () s' ∧
      s'.sr.resultlst.elems = rs ∧ rs.length = 2 ∧
      delivered Sample.tapLog 0 s'.proc.hist = rs ∧
      tapNumbers Sample.tapLog 0 s'.proc.hist = [(.endT, 1), (.endT, 2), (.endlogSr, 2)] := by
  have hfinal : (returned (srunnerRunTagged Sample.ctx (runNested Sample.ctx) Sample.args
      (Sample.logged Sample.passFail))).map (fun r => r.2.sr.resultlst.elems.length) = some 2 := by
    decide +kernel
  obtain ⟨_, s', hrun, hlen⟩ := ok_of_returned hfinal
  obtain ⟨rs, hrs, -, hall⟩ := results_logged (s := Sample.logged Sample.passFail)
    (legible_of_closed rfl rfl) rfl (Sample.elems_tags Sample.passFail .nofork) hrun
  have htap : Sample.tapLog ∈ registered Sample.ctx (Sample.logged Sample.passFail).sr .normal := by
    decide +kernel
  have hplan : ∀ c ∈ foreseen (Sample.logged Sample.passFail).heap (0, false)
      (plan Sample.args (Sample.logged Sample.passFail).heap fun tc =>
        Sample.passFail[tc]?.bind Sample.Case.tags),
      ¬ abandoned (Sample.logged Sample.passFail).heap c.1 c.2.1 c.2.2 := by
    decide +kernel
  have hspared : (returned (srunnerRunTagged Sample.ctx (runSparing Sample.ctx fun c => !c.logsTap)
      Sample.args (Sample.logged Sample.passFail))).isSome := by
    decide +kernel
  obtain ⟨ds, hds, hiff, -, hnumbers⟩ := hall Sample.tapLog htap
  have hnone : ds = rs := hiff.mpr hplan
  have hrs' : s'.sr.resultlst.elems = rs := hrs
  have hlen : rs.length = 2 := hrs' ▸ hlen
  have hnumbers := hnumbers (fun t ht => by rw [ht] at hspared; cases hspared) rfl
  rw [hnone, hlen] at hnumbers
  exact ⟨s', rs, hrun, hrs', hlen, hnone ▸ hds, hnumbers⟩

/-- A test case with an unchecked setup that fails. -/
def Sample.failingSetup : List (Sample.Case NestedRun) :=
  [⟨fun fl => if fl = .unchSflst then [Sample.fixture [Sample.fail]] else [],
    [Sample.test []], none⟩]

/-- The failure is recorded and does not reach the TAP log, whose plan is `1..0`. -/
theorem unchecked_setup_not_logged :
    ∃ s', srunnerRunTagged Sample.ctx (runNested Sample.ctx) Sample.args
        (Sample.logged Sample.failingSetup) = .ok () s' ∧
      Sample.tapLog ∈ registered Sample.ctx (Sample.logged Sample.failingSetup).sr .normal ∧
      s'.sr.resultlst.elems.map TestResult.rtype = [.failure] ∧
      delivered Sample.tapLog 0 s'.proc.hist = [] ∧
      tapNumbers Sample.tapLog 0 s'.proc.hist = [(.endlogSr, 0)] := by
  have hfinal : (returned (srunnerRunTagged Sample.ctx (runNested Sample.ctx) Sample.args
      (Sample.logged Sample.failingSetup))).map (fun r =>
        (r.2.sr.resultlst.elems.map TestResult.rtype,
          (delivered Sample.tapLog 0 r.2.proc.hist).length,
          tapNumbers Sample.tapLog 0 r.2.proc.hist)) =
      some ([.failure], 0, [(.endlogSr, 0)]) := by
    decide +kernel
  obtain ⟨_, s', hrun, hres⟩ := ok_of_returned hfinal
  simp only [Prod.mk.injEq, List.length_eq_zero_iff] at hres
  exact ⟨s', hrun, by decide +kernel, hres⟩

/-! ## brackets -/

section

variable {L : Type → Type} [Lists L] (heap : Heap L NestedRun)

/-- Only a test case without iterations has no events. -/
theorem flatMap_iterationEvents_eq_nil (tc : TCaseId) :
    (iterations heap tc).flatMap (iterationEvents heap tc) = [] ↔ iterations heap tc = [] := by
  cases iterations heap tc with
  | nil => simp
  | cons t ts => simp [iterationEvents]

/-- No more events come than should. -/
theorem planEvents_sublist (c : Nat × Bool) (ks : List RunStep) :
    (planEvents heap c ks).Sublist (expectedEvents heap c.1 ks) := by
  induction ks generalizing c with
  | nil => exact .slnil
  | cons step ks ih =>
      cases step with
      | suiteStart su => exact (List.Sublist.refl _).append (ih c)
      | suiteEnd su => exact (List.Sublist.refl _).append (ih c)
      | tcase tc =>
          refine List.Sublist.append ?_ (ih _)
          rw [stepEvents, stepEvents]
          by_cases hf : fixturesFail heap .unchSflst (c.1 + 1) tc
          · have hab : abandoned heap (c.1 + 1) c.2 tc := by rw [abandoned, hf, Bool.or_true]
            rw [if_pos hab]
            exact List.nil_sublist _
          · rw [if_neg hf]
            split
            · exact List.nil_sublist _
            · exact .refl _

/-- The events are as expected if and only if no test case with tests is abandoned
for the failure of another one. -/
theorem planEvents_eq_iff (c : Nat × Bool) (ks : List RunStep) :
    planEvents heap c ks = expectedEvents heap c.1 ks ↔
      ∀ t ∈ foreseen heap c ks, abandoned heap t.1 t.2.1 t.2.2 →
        fixturesFail heap .unchSflst t.1 t.2.2 ∨ iterations heap t.2.2 = [] := by
  induction ks generalizing c with
  | nil => simp [planEvents, expectedEvents, foreseen]
  | cons step ks ih =>
      cases step with
      | suiteStart su => exact (List.append_right_inj _).trans (ih c)
      | suiteEnd su => exact (List.append_right_inj _).trans (ih c)
      | tcase tc =>
          rw [foreseen, List.forall_mem_cons, ← ih]
          show stepEvents heap (abandoned heap (c.1 + 1) c.2) (.tcase tc) ++ _ =
            stepEvents heap (fixturesFail heap .unchSflst (c.1 + 1)) (.tcase tc) ++ _ ↔ _
          rw [stepEvents, stepEvents]
          by_cases hab : abandoned heap (c.1 + 1) c.2 tc
          · by_cases hf : fixturesFail heap .unchSflst (c.1 + 1) tc
            · rw [if_pos hab, if_pos hf, List.append_right_inj]
              exact (and_iff_right fun _ => .inl hf).symm
            · rw [if_pos hab, if_neg hf, List.nil_append]
              by_cases hit : iterations heap tc = []
              · rw [(flatMap_iterationEvents_eq_nil heap tc).mpr hit, List.nil_append]
                exact (and_iff_right fun _ => .inr hit).symm
              · -- what is left out here does not come later
                have hsub := (planEvents_sublist heap (carry heap c (.tcase tc)) ks).length_le
                have hpos := List.length_pos_iff.mpr fun h =>
                  hit ((flatMap_iterationEvents_eq_nil heap tc).mp h)
                refine iff_of_false (fun h => ?_) fun h => (h.1 hab).elim hf hit
                have hlen := congrArg List.length h
                rw [List.length_append] at hlen
                exact absurd hsub (by simp only [carry] at hlen ⊢; omega)
          · have hf : ¬ fixturesFail heap .unchSflst (c.1 + 1) tc := fun hf =>
              hab (by rw [abandoned, hf, Bool.or_true])
            rw [if_neg hab, if_neg hf, List.append_right_inj]
            exact (and_iff_right fun h => absurd h hab).symm

end

/-- **The events of a run**: every registered logger is told the same events,
between `CLINITLOG_SR` and `CLENDLOG_SR`.  They are as they should be — one
bracket for every wanted suite and in it one pair of events for every
iteration of every test of the wanted test cases whose unchecked setups
pass — if and only if no test case with tests is abandoned for the failure of
another one. -/
theorem events_wellBracketed {x : Ctx} {s s' : St CkList UInt8 NestedRun} {a : RunArgs}
    {tags : TCaseId → Option CStr} (hs : Legible x.cfg s.proc) (h2 : s.proc.sendFile2 = none)
    (htags : ∀ tc, (s.heap.lists (.tags tc)).elems = tagStringToList (tags tc))
    (h : srunnerRunTagged x (runNested x) a s = .ok () s') :
    ∃ es, (∀ lg ∈ registered x s.sr a.printMode,
        eventsOf lg x.lvl s'.proc.hist = eventsOf lg x.lvl s.proc.hist ++
          ([.log .initlogSr .null, .log .startSr .null] ++ es ++
            [.log .endSr .null, .log .endlogSr .null])) ∧
      (es = expectedEvents s.heap s.now.tcrun (plan (effectiveArgs x.env a) s.heap tags) ↔
        ∀ c ∈ foreseen s.heap (s.now.tcrun, false) (plan (effectiveArgs x.env a) s.heap tags),
          abandoned s.heap c.1 c.2.1 c.2.2 →
            fixturesFail s.heap .unchSflst c.1 c.2.2 ∨ iterations s.heap c.2.2 = []) := by
  obtain ⟨rs, ds, -, -, hrun, -⟩ := runLogged_of_ok hs h2 htags h
  exact ⟨_, hrun.events, planEvents_eq_iff s.heap (s.now.tcrun, false) _⟩

/-- The TAP logger is told of both tests. -/
theorem events_wellBracketed_passFail :
    ∃ s', srunnerRunTagged Sample.ctx (runNested Sample.ctx) Sample.args
        (Sample.logged Sample.passFail) = .ok () s' ∧
      eventsOf Sample.tapLog 0 s'.proc.hist =
        [.log .initlogSr .null, .log .startSr .null] ++
          expectedEvents (Sample.logged Sample.passFail).heap 0
            (plan Sample.args (Sample.logged Sample.passFail).heap fun tc =>
              Sample.passFail[tc]?.bind Sample.Case.tags) ++
          [.log .endSr .null, .log .endlogSr .null] := by
  have hfinal : (returned (srunnerRunTagged Sample.ctx (runNested Sample.ctx) Sample.args
      (Sample.logged Sample.passFail))).map (fun _ => ()) = some () := by
    decide +kernel
  obtain ⟨_, s', hrun, -⟩ := ok_of_returned hfinal
  obtain ⟨es, hes, hiff⟩ := events_wellBracketed (s := Sample.logged Sample.passFail)
    (legible_of_closed rfl rfl) rfl (Sample.elems_tags Sample.passFail .nofork) hrun
  have htap : Sample.tapLog ∈ registered Sample.ctx (Sample.logged Sample.passFail).sr .normal := by
    decide +kernel
  have hplan : ∀ c ∈ foreseen (Sample.logged Sample.passFail).heap (0, false)
      (plan Sample.args (Sample.logged Sample.passFail).heap fun tc =>
        Sample.passFail[tc]?.bind Sample.Case.tags),
      abandoned (Sample.logged Sample.passFail).heap c.1 c.2.1 c.2.2 →
        fixturesFail (Sample.logged Sample.passFail).heap .unchSflst c.1 c.2.2 ∨
          iterations (Sample.logged Sample.passFail).heap c.2.2 = [] := by
    intro c hc hab
    revert c
    decide +kernel
  have hes' := hes Sample.tapLog htap
  rw [hiff.mpr hplan] at hes'
  exact ⟨s', hrun, hes'⟩

/-- A test case with an unchecked teardown that fails, and one with an unchecked
setup that passes and a test. -/
def Sample.failingTeardown : List (Sample.Case NestedRun) :=
  [⟨fun fl => if fl = .unchTflst then [Sample.fixture [Sample.fail]] else [], [], none⟩,
    ⟨fun fl => if fl = .unchSflst then [Sample.fixture []] else [], [Sample.test []], none⟩]

/-- Nobody is told of the test: the second test case is abandoned, although its
unchecked setup passes. -/
theorem test_skipped_after_teardown :
    ∃ s', srunnerRunTagged Sample.ctx (runNested Sample.ctx) Sample.args
        (Sample.logged Sample.failingTeardown) = .ok () s' ∧
      Sample.tapLog ∈ registered Sample.ctx (Sample.logged Sample.failingTeardown).sr .normal ∧
      fixturesFail (Sample.logged Sample.failingTeardown).heap .unchSflst 2 1 = false ∧
      eventsOf Sample.tapLog 0 s'.proc.hist ≠
        [.log .initlogSr .null, .log .startSr .null] ++
          expectedEvents (Sample.logged Sample.failingTeardown).heap 0
            (plan Sample.args (Sample.logged Sample.failingTeardown).heap fun _ => none) ++
          [.log .endSr .null, .log .endlogSr .null] := by
  have hfinal : (returned (srunnerRunTagged Sample.ctx (runNested Sample.ctx) Sample.args
      (Sample.logged Sample.failingTeardown))).map (fun r =>
        decide (eventsOf Sample.tapLog 0 r.2.proc.hist ≠
          [.log .initlogSr .null, .log .startSr .null] ++
            expectedEvents (Sample.logged Sample.failingTeardown).heap 0
              (plan Sample.args (Sample.logged Sample.failingTeardown).heap fun _ => none) ++
            [.log .endSr .null, .log .endlogSr .null])) = some true := by
    decide +kernel
  obtain ⟨_, s', hrun, hne⟩ := ok_of_returned hfinal
  exact ⟨s', hrun, by decide +kernel, by decide +kernel, of_decide_eq_true hne⟩

/-! ## whose failures -/

/-- As long as no unchecked teardown fails, no failure is waiting when a test case
begins. -/
theorem foreseen_none_waiting {L : Type → Type} [Lists L] (heap : Heap L NestedRun) (n : Nat)
    (ks : List RunStep)
    (h : ∀ t ∈ foreseen heap (n, false) ks, ¬ fixturesFail heap .unchSflst t.1 t.2.2 →
      ¬ fixturesFail heap .unchTflst t.1 t.2.2) :
    ∀ t ∈ foreseen heap (n, false) ks, t.2.1 = false := by
  induction ks generalizing n with
  | nil => exact fun _ ht => absurd ht List.not_mem_nil
  | cons step ks ih =>
      cases step with
      | suiteStart su => exact ih n h
      | suiteEnd su => exact ih n h
      | tcase tc =>
          rw [foreseen, List.forall_mem_cons] at h ⊢
          have hleft : leftBehind heap (n + 1) false tc = false := by
            rw [leftBehind, abandoned, Bool.and_false, Bool.and_false, Bool.and_false,
              Bool.false_or,
              Bool.false_or]
            split
            · rfl
            · next hf => exact Bool.eq_false_iff.mpr (h.1 hf)
          have hcarry : carry heap (n, false) (.tcase tc) = (n + 1, false) := by rw [carry, hleft]
          rw [hcarry] at h ⊢
          exact ⟨rfl, ih (n + 1) h.2⟩

/-- **Failures stay with their test case**, without forking, in every run in which
no unchecked teardown fails: every result carries the name of the test case of
its unit, and is a failure if and only if one of the unit's own functions
fails. -/
theorem failures_attributed {x : Ctx} {s s' : St CkList UInt8 NestedRun} {a : RunArgs}
    {tags : TCaseId → Option CStr} (hs : Legible x.cfg s.proc) (h2 : s.proc.sendFile2 = none)
    (htags : ∀ tc, (s.heap.lists (.tags tc)).elems = tagStringToList (tags tc))
    (hmode : forkStatusOf x.env s.sr.fstat = .nofork)
    (hclean : ∀ t ∈ foreseen s.heap (s.now.tcrun, false) (plan (effectiveArgs x.env a) s.heap tags),
      ¬ fixturesFail s.heap .unchSflst t.1 t.2.2 → ¬ fixturesFail s.heap .unchTflst t.1 t.2.2)
    (h : srunnerRunTagged x (runNested x) a s = .ok () s') :
    ∃ rs, s'.sr.resultlst.elems = s.sr.resultlst.elems ++ rs ∧
      List.Forall₂ (Attributed s.heap)
        (planUnits s.heap (s.now.tcrun, false) (plan (effectiveArgs x.env a) s.heap tags)) rs := by
  obtain ⟨rs, ds, -, -, hrun, hu⟩ := runLogged_of_ok hs h2 htags h
  exact ⟨rs, hrun.results, hu hmode (foreseen_none_waiting s.heap _ _ hclean)⟩

/-- In such a run, the failing test is the one that is recorded as a failure. -/
theorem failures_attributed_passFail :
    ∃ s' tr tr', srunnerRunTagged Sample.ctx (runNested Sample.ctx) Sample.args
        (Sample.start Sample.passFail .nofork) = .ok () s' ∧
      s'.sr.resultlst.elems = [tr, tr'] ∧ tr.rtype ≠ .failure ∧ tr'.rtype = .failure := by
  have hfinal : (returned (srunnerRunTagged Sample.ctx (runNested Sample.ctx) Sample.args
      (Sample.start Sample.passFail .nofork))).map (fun _ => ()) = some () := by
    decide +kernel
  obtain ⟨_, s', hrun, -⟩ := ok_of_returned hfinal
  have hclean : ∀ t ∈ foreseen (Sample.start Sample.passFail .nofork).heap (0, false)
      (plan (effectiveArgs Sample.ctx.env Sample.args)
        (Sample.start Sample.passFail .nofork).heap fun tc =>
          Sample.passFail[tc]?.bind Sample.Case.tags),
      ¬ fixturesFail (Sample.start Sample.passFail .nofork).heap .unchSflst t.1 t.2.2 →
        ¬ fixturesFail (Sample.start Sample.passFail .nofork).heap .unchTflst t.1 t.2.2 := by
    decide +kernel
  obtain ⟨rs, hrs, hall⟩ := failures_attributed (s := Sample.start Sample.passFail .nofork)
    (x := Sample.ctx) (a := Sample.args)
    (legible_of_closed rfl rfl) rfl (Sample.elems_tags Sample.passFail .nofork) rfl hclean hrun
  have hunits : planUnits (Sample.start Sample.passFail .nofork).heap (0, false)
      (plan (effectiveArgs Sample.ctx.env Sample.args)
        (Sample.start Sample.passFail .nofork).heap fun tc =>
          Sample.passFail[tc]?.bind Sample.Case.tags) =
      [.test ⟨1, 1⟩ 0 (Sample.test []) 0, .test ⟨1, 2⟩ 0 (Sample.test [Sample.fail]) 0] := by
    rfl
  have hall : List.Forall₂ (Attributed (Sample.start Sample.passFail .nofork).heap)
      [.test ⟨1, 1⟩ 0 (Sample.test []) 0, .test ⟨1, 2⟩ 0 (Sample.test [Sample.fail]) 0] rs :=
    hunits ▸ hall
  rcases hall with _ | ⟨h₁, _ | ⟨h₂, hnil⟩⟩
  cases hnil
  refine ⟨s', _, _, hrun, hrs, fun hf => ?_, h₂.2.mpr (by decide +kernel)⟩
  exact absurd (h₁.2.mp hf) (by decide +kernel)

/-- Two test cases with names of their own: an unchecked teardown of the first one
fails. -/
def Sample.twoNames : St CkList UInt8 NestedRun :=
  let s := Sample.start [⟨fun fl => if fl = .unchTflst then [Sample.fixture [Sample.fail]] else [],
    [Sample.test []], none⟩, ⟨fun _ => [], [Sample.test []], none⟩] .nofork
  { s with heap := { s.heap with tcName := fun tc => if tc = 0 then .lit "a" else .lit "b" } }

/-- The failure is recorded for the test of the second one, which passes. -/
theorem teardown_failure_misattributed :
    ∃ s', srunnerRunTagged Sample.ctx (runNested Sample.ctx) Sample.args Sample.twoNames = .ok
      () s' ∧
      s'.sr.resultlst.elems.map (fun tr => (tr.tcname, tr.rtype)) =
        [(some (.lit "a"), .pass), (some (.lit "b"), .failure)] ∧
      testFails Sample.twoNames.heap 1 (Sample.test []) 0 ⟨2, 1⟩ = false ∧
      fixturesFail Sample.twoNames.heap .unchTflst 1 0 = true := by
  have hfinal : (returned (srunnerRunTagged Sample.ctx (runNested Sample.ctx) Sample.args
      Sample.twoNames)).map (fun r => r.2.sr.resultlst.elems.map fun tr => (tr.tcname, tr.rtype)) =
      some [(some (.lit "a"), .pass), (some (.lit "b"), .failure)] := by
    decide +kernel
  obtain ⟨_, s', hrun, hres⟩ := ok_of_returned hfinal
  exact ⟨s', hrun, hres, by decide +kernel, by decide +kernel⟩

end LibCheck
