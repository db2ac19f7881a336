import LibCheck.Isolation

/-!
# LibCheck.Outcomes

What a whole run records.

* `Resting` — the runner between the parts of a run: nothing that it has received before
  shows in what it receives next.
* `srunnerRunTagged_outcomes` — a run records, one after the other, what its units
  record each by itself.
-/

namespace LibCheck

open Prog

/-! ## unchecked fixtures -/

/-- The unchecked fixtures of the test case, which the runner itself calls, pass or fail by
an assertion, and no teardown fails. -/
structure PlainFixtures {L : Type → Type} [Lists L] (cfg : Config) (heap : Heap L NestedRun)
    (tc : TCaseId) : Prop where
  setups : ∀ f ∈ Lists.elems (heap.lists (.fixtures .unchSflst tc)), ∀ k,
    PlainFun cfg (f.sfun.acts ⟨k, 0⟩)
  teardowns : ∀ f ∈ Lists.elems (heap.lists (.fixtures .unchTflst tc)), ∀ k,
    PlainFun cfg (f.sfun.acts ⟨k, 0⟩) ∧ failureOf cfg (f.sfun.acts ⟨k, 0⟩) = none

theorem Plain.fails_eq (cfg : Config) {ν : Type} {acts : List (Act ν)} (hp : Plain acts) :
    fails acts = (failureOf cfg acts).isSome := by
  induction hp with
  | nil => rfl
  | markPoint loc hp ih => exact ih
  | assertFailed loc expr msg => rfl

/-- The result of unchecked setups that fail. -/
def Failure.setupResult (tcname : CStr) (f : Failure) : TestResult where
  rtype := .failure
  ctx := .setup
  file := some f.loc.file
  line := f.loc.line
  iter := 0
  duration := -1
  tcname := some tcname
  tname := some (.lit "unchecked_setup")
  msg := some f.text

/-- A plain function that passes marks places only. -/
theorem RcvMsg.Blank.messages {ν : Type} {cfg : Config} {acts : List (Act ν)} (hp : Plain acts)
    (hpass : failureOf cfg acts = none) {r : RcvMsg} (h : r.Blank) (hctx : r.lastctx = .teardown) :
    (received r (messages cfg acts)).Blank ∧
      (received r (messages cfg acts)).lastctx = .teardown := by
  induction hp generalizing r with
  | nil => exact ⟨h, hctx⟩
  | markPoint loc hp ih =>
      rw [LibCheck.messages, received_cons]
      obtain rfl | ⟨file, line, rfl⟩ := h
      · cases hctx
      · exact ih hpass (.inr ⟨some loc.file, loc.line, rfl⟩) rfl
  | assertFailed loc expr msg => cases hpass

/-- The messages of teardowns that pass. -/
def teardownStream {ν : Type} (cfg : Config) (now : When) (fs : List (Fixture ν)) : List SendMsg :=
  fs.flatMap fun f => .ctx .teardown :: messages cfg (f.sfun.acts now)

theorem RcvMsg.Blank.teardownStream {ν : Type} {cfg : Config} {now : When} {fs : List (Fixture ν)}
    (hfs : ∀ f ∈ fs, Plain (f.sfun.acts now) ∧ failureOf cfg (f.sfun.acts now) = none) {r : RcvMsg}
    (h : r.Blank) : (received r (LibCheck.teardownStream cfg now fs)).Blank := by
  induction fs generalizing r with
  | nil => exact h
  | cons f fs ih =>
      rw [LibCheck.teardownStream, List.flatMap_cons, received_append, received_cons]
      have hctx : (rcvmsgUpdateCtx r .teardown).Blank := by
        obtain rfl | ⟨file, line, rfl⟩ := h
        · exact .inr ⟨none, -1, rfl⟩
        · exact .inr ⟨none, -1, rfl⟩
      have hf := hfs f List.mem_cons_self
      exact ih (fun f' hf' => hfs f' (List.mem_cons_of_mem f hf'))
        (hctx.messages hf.1 hf.2 (rcvmsgUpdateCtx_lastctx r _)).1

section

variable {ν : Type} {x : Ctx} {call : ν → RunM List SendMsg ν Unit} {s s' : St List SendMsg ν}

variable (call) in
/-- A teardown that passes. -/
theorem runTeardown_passing (fl : FixtureList) (usage : ForkStatus) {f : Fixture ν}
    (hp : PlainFun x.cfg (f.sfun.acts s.now)) (hpass : failureOf x.cfg (f.sfun.acts s.now) = none)
    (hctx : Limited x.cfg.maxMsg [.ctx .teardown]) (hr : Ready s) :
    ∃ s', Wrote (.ctx .teardown :: messages x.cfg (f.sfun.acts s.now)) s s' ∧
      runTeardown x call fl usage f s = .ok none s' := by
  have hsend : sendCtxInfo x .teardown s = .ok () (s.onProc (Proc.fwrite [.ctx .teardown])) :=
    sendMsg_of_ready hr (nonNeg_ctx _) hctx
  have hw1 := wrote_fwrite [.ctx .teardown] s
  have hcall : ∀ s1 : St List SendMsg ν, Wrote [] (s.onProc (Proc.fwrite [.ctx .teardown])) s1 →
      ∃ s', Wrote (messages x.cfg (f.sfun.acts s.now)) s1 s' ∧
        callFixture x call fl f s1 = .ok false s' := by
    intro s1 hw
    have hnow : s1.now = s.now := hw.now.trans hw1.now
    rw [← hnow] at hp hpass ⊢
    obtain ⟨s', hw', hrun⟩ := callFixture_plain call fl hp.1 (hw.ready (hw1.ready hr)) hp.2
    rw [hpass] at hrun
    exact ⟨s', hw', hrun⟩
  rw [runTeardown, bind_of_ok _ hsend]
  by_cases hu : usage = .nofork
  · rw [if_pos hu]
    obtain ⟨s', hw', hrun⟩ := protect_of_leave (x := x) _ false hcall
    exact ⟨s', hw1.trans hw', bind_of_ok _ hrun⟩
  · rw [if_neg hu]
    obtain ⟨s', hw', hrun⟩ := hcall _ (.refl _)
    have hunprotected : unprotected (callFixture x call fl f)
        (s.onProc (Proc.fwrite [.ctx .teardown])) = .ok () s' := bind_of_ok _ hrun
    exact ⟨s', hw1.trans hw', bind_of_ok _ hunprotected⟩

variable (call) in
/-- Teardowns that pass. -/
theorem findSomeM_runTeardown_passing (fl : FixtureList) (usage : ForkStatus)
    {fs : List (Fixture ν)}
    (hp : ∀ f ∈ fs, PlainFun x.cfg (f.sfun.acts s.now) ∧ failureOf x.cfg (f.sfun.acts s.now) = none)
    (hctx : Limited x.cfg.maxMsg [.ctx .teardown]) (hr : Ready s) :
    ∃ s', Wrote (teardownStream x.cfg s.now fs) s s' ∧
      fs.findSomeM? (runTeardown x call fl usage) s = .ok none s' := by
  induction fs generalizing s with
  | nil => exact ⟨s, .refl s, rfl⟩
  | cons f fs ih =>
      have hf := hp f List.mem_cons_self
      obtain ⟨s1, hw1, hrun1⟩ := runTeardown_passing call fl usage hf.1 hf.2 hctx hr
      have hnow : s1.now = s.now := hw1.now
      obtain ⟨s2, hw2, hrun2⟩ := ih (s := s1)
        (by rw [hnow]; exact fun f' hf' => hp f' (List.mem_cons_of_mem f hf')) (hw1.ready hr)
      rw [hnow] at hw2
      exact ⟨s2, hw1.trans hw2, (bind_of_ok _ hrun1).trans hrun2⟩

/-- A run begins with an empty message file. -/
theorem emptied_setupPipe (h2 : s.proc.sendFile2 = none) (h : setupPipe s = .ok () s') :
    Emptied s' := by
  rw [setupPipe, read_bind] at h
  cases h1 : s.proc.sendFile1 with
  | none =>
      rw [h1] at h
      cases h
      intro f hf
      simp only [St.onProc, Proc.getPipe, Proc.openFile1, h2, Option.some.injEq] at hf
      rw [← hf]
  | some f1 =>
      rw [h1, Option.isNone_some, if_neg Bool.false_ne_true, read_bind, h2] at h
      cases h
      intro f hf
      simp only [St.onProc, Proc.getPipe, Proc.openFile2, Option.some.injEq] at hf
      rw [← hf]

theorem emptied_receiveTestResult {w : Bool} {tr : TestResult}
    (h : receiveTestResult x w s = .ok tr s') : Emptied s' := by
  rw [receiveTestResult_apply] at h
  split at h
  · cases h
  · cases h
  · cases h
    exact emptied_renew s

/-- After a setup in the same process a result was received, which is of no iteration and
has no duration. -/
theorem runSetup_nofork_ok {fl : FixtureList} {tcname tname : CStr} {f : Fixture ν}
    {r : Option TestResult} (h : runSetup x call fl .nofork tcname tname f s = .ok r s') :
    Emptied s' ∧ ∀ tr, r = some tr → tr.iter = 0 ∧ tr.duration = -1 := by
  rw [runSetup, if_pos rfl] at h
  obtain ⟨_, s1, -, h⟩ := bind_eq_ok.mp h
  obtain ⟨_, s2, -, h⟩ := bind_eq_ok.mp h
  obtain ⟨tr, s3, hinfo, h⟩ := bind_eq_ok.mp h
  obtain ⟨tr0, s4, hrcv, hpure⟩ := bind_eq_ok.mp hinfo
  cases hpure
  have hempty := emptied_receiveTestResult hrcv
  split at h
  · cases h
    refine ⟨hempty, fun tr htr => ?_⟩
    cases htr
    rw [setNoforkInfo]
    split <;> exact ⟨rfl, rfl⟩
  · cases h
    exact ⟨hempty, fun _ he => absurd he (Option.some_ne_none _).symm⟩

/-- After setups in the same process, the message file is empty, or nothing was done. -/
theorem findSomeM_runSetup_nofork {fl : FixtureList} {tcname tname : CStr} {fs : List (Fixture ν)}
    {r : Option TestResult}
    (h : fs.findSomeM? (runSetup x call fl .nofork tcname tname) s = .ok r s') :
    (s' = s ∨ Emptied s') ∧ ∀ tr, r = some tr → tr.iter = 0 ∧ tr.duration = -1 := by
  induction fs generalizing s with
  | nil =>
      cases h
      exact ⟨.inl rfl, fun _ he => absurd he (Option.some_ne_none _).symm⟩
  | cons f fs ih =>
      rw [List.findSomeM?] at h
      obtain ⟨r1, s1, hf, h⟩ := bind_eq_ok.mp h
      obtain ⟨hempty, hexact⟩ := runSetup_nofork_ok hf
      cases r1 with
      | some tr =>
          cases h
          exact ⟨.inr hempty, hexact⟩
      | none =>
          obtain ⟨rfl | hempty', hexact'⟩ := ih h
          · exact ⟨.inr hempty, hexact'⟩
          · exact ⟨.inr hempty', hexact'⟩

end

/-! ## between the parts of a run -/

/-- The runner between the parts of a run: no failure is waiting and, if tests have
processes of their own, nothing else that would show in a result. -/
structure Resting (x : Ctx) (H : Heap List NestedRun) (mode : ForkStatus)
    (s : St List SendMsg NestedRun) : Prop where
  serving : Serving x H mode s
  calm : s.proc.pending = false
  blank : ∀ f, s.proc.getPipe = some f → mode = .fork → (received rcvmsgCreate f.content).Blank

section

variable {x : Ctx} {H : Heap List NestedRun} {mode : ForkStatus} {s s' : St List SendMsg NestedRun}

theorem noFail_of_not_pending {f : Pipe SendMsg} (hs : Able s) (hcalm : s.proc.pending = false)
    (hp : s.proc.getPipe = some f) : NoFail f.content := by
  obtain ⟨g, hg, hnn⟩ := hs.readable
  cases hg.symm.trans hp
  rw [Proc.pending, hp, List.any_eq_false] at hcalm
  rintro m hm
  refine ⟨hnn m hm, ?_⟩
  rintro t rfl
  exact hcalm _ hm rfl

/-- A change that leaves the message file alone. -/
theorem Resting.same (h : Resting x H mode s) (hs : Serving x H mode s')
    (hpipe : s'.proc.getPipe = s.proc.getPipe) : Resting x H mode s' where
  serving := hs
  calm := (Proc.pending_of_getPipe hpipe).trans h.calm
  blank f hf := h.blank f (hpipe ▸ hf)

/-- The numbers of the test case and of the test do not matter. -/
theorem Resting.numbered (h : Resting x H mode s) (now : When) :
    Resting x H mode { s with now := now } :=
  h.same ⟨⟨h.serving.midrun.heap, h.serving.midrun.file1, h.serving.midrun.mode⟩,
    ⟨h.serving.able.killIn, h.serving.able.file1, h.serving.able.readable⟩, h.serving.loglst,
    h.serving.fstat, h.serving.quiet⟩ rfl

theorem Resting.observe (h : Resting x H mode s) (o : Obs) :
    Resting x H mode (s.onProc (Proc.observe x.lvl o)) :=
  h.same ⟨⟨h.serving.midrun.heap, h.serving.midrun.file1, h.serving.midrun.mode⟩,
    ⟨h.serving.able.killIn, h.serving.able.file1, h.serving.able.readable⟩, h.serving.loglst,
    h.serving.fstat, h.serving.quiet⟩ rfl

/-- A result is received. -/
theorem Resting.emptied (hs : Serving x H mode s') (hempty : Emptied s') : Resting x H mode s' where
  serving := hs
  calm := by
    rw [Proc.pending]
    cases hp : s'.proc.getPipe with
    | none => rfl
    | some f =>
        show f.content.any _ = false
        rw [hempty f hp, List.any_nil]
  blank f hf _ := .inl (by rw [hempty f hf, received_nil])

/-- An event. -/
theorem Resting.sendEvt (h : Resting x H mode s) (evt : ClEvent) {obj : LogObj}
    (hobj : ∀ lfun, lfunStop lfun obj = none) :
    ∃ s', srunnerSendEvt x obj evt s = .ok () s' ∧ Resting x H mode s' ∧ s'.now = s.now ∧
      s'.sr = s.sr := by
  obtain ⟨s', hsend, hs', hnow, -, hsr, -⟩ := h.serving.sendEvt evt hobj
  refine ⟨s', hsend, h.same hs' ?_, hnow, hsr⟩
  obtain ⟨-, -, rfl⟩ := srunnerSendEvt_ok hsend
  show (List.foldl _ s.proc _).getPipe = s.proc.getPipe
  rw [Proc.foldl_notify_eq]
  rfl

variable {tc : TCaseId} (hctx : ∀ c, Limited x.cfg.maxMsg [.ctx c])
  (hfix : PlainFixtures x.cfg H tc)

theorem PlainFixtures.not_fail (hfix : PlainFixtures x.cfg H tc) (k : Nat) :
    fixturesFail H .unchTflst k tc = false := by
  rw [fixturesFail, List.any_eq_false]
  intro f hf
  obtain ⟨hp, hpass⟩ := hfix.teardowns f hf k
  rw [hp.1.fails_eq x.cfg, hpass]
  exact Bool.false_ne_true

include hctx hfix in
/-- The unchecked teardowns leave nothing behind that shows in a result. -/
theorem srunnerRunUncheckedTeardown_rests {k : Nat} (hs : Resting x H mode s)
    (hk : s.now = ⟨k, 0⟩) :
    ∃ s', srunnerRunUncheckedTeardown x (runNested x) tc s = .ok () s' ∧ Resting x H mode s' ∧
      s'.now = s.now ∧ s'.sr = s.sr := by
  have hlists : s.heap.lists (.fixtures .unchTflst tc) = H.lists (.fixtures .unchTflst tc) :=
    congrArg (fun h => h.lists (.fixtures .unchTflst tc)) hs.serving.midrun.heap
  obtain ⟨s', hw, hwalk⟩ := findSomeM_runTeardown_passing (x := x) (s := s) (runNested x)
    .unchTflst mode (fun f hf => hk ▸ hfix.teardowns f hf k) (hctx _) hs.serving.able.ready
  have hrun : srunnerRunUncheckedTeardown x (runNested x) tc s = .ok () s' := by
    rw [srunnerRunUncheckedTeardown, srunnerForkStatus, read_bind, hs.serving.midrun.mode,
      srunnerRunTeardown]
    exact bind_of_ok _ ((forList_of_lists hlists _).trans hwalk)
  obtain ⟨⟨hm, -⟩, hp, -⟩ :=
    srunnerRunUncheckedTeardown_ok [] hs.serving.midrun hk hrun
  rw [hs.calm, hfix.not_fail, Bool.or_false] at hp
  obtain ⟨f, hf, hnn⟩ := hs.serving.able.readable
  have hpipe := hw.getPipe hf
  have hplain : ∀ f ∈ H.lists (.fixtures .unchTflst tc),
      Plain (f.sfun.acts s.now) ∧ failureOf x.cfg (f.sfun.acts s.now) = none := fun f hf => by
    rw [hk]
    exact ⟨(hfix.teardowns f hf k).1.1, (hfix.teardowns f hf k).2⟩
  refine ⟨s', hrun, ⟨⟨hm, ⟨hw.killIn.trans hs.serving.able.killIn, hm.file1, _, hpipe, ?_⟩, ?_,
    hw.fstat.trans hs.serving.fstat, fun _ => hp⟩, hp, fun g hg hmode => ?_⟩, hw.now, hw.sr⟩
  · refine List.forall_mem_append.mpr ⟨hnn, fun m hm => ?_⟩
    obtain ⟨f, -, hm⟩ := List.mem_flatMap.mp hm
    rcases List.mem_cons.mp hm with rfl | hm
    · exact nonNeg_ctx _
    · exact nonNeg_messages _ _ m hm
  · rw [hw.sr]
    exact hs.serving.loglst
  · cases hpipe.symm.trans hg
    rw [received_append]
    exact (hs.blank f hf hmode).teardownStream hplain

theorem Failure.eq_setupResult {f : Failure} {tr : TestResult} {tcname : CStr}
    (h : f.Reported .setup tr) (htc : tr.tcname = some tcname)
    (htn : tr.tname = some (.lit "unchecked_setup")) (hexact : tr.iter = 0 ∧ tr.duration = -1) :
    tr = f.setupResult tcname := by
  obtain ⟨h1, h2, h3, h4, h5⟩ := h
  cases tr
  simp_all [setupResult]

/-- The unchecked setups, once they have been called. -/
theorem srunnerRunUncheckedSetup_of_ok {r : Option TestResult} {s1 : St List SendMsg NestedRun}
    (hset : srunnerRunSetup x (runNested x) .unchSflst tc .nofork (s.heap.tcName tc)
      (.lit "unchecked_setup") (s.onProc fun p => { p with fstat := .nofork }) = .ok r s1)
    (hmode : forkStatusOf x.env s1.sr.fstat = mode) :
    srunnerRunUncheckedSetup x (runNested x) tc s =
      (r.elim (pure true) fun tr =>
        if tr.rtype ≠ .pass then do
          srunnerAddFailure tr
          pure false
        else pure true : RunM List SendMsg NestedRun Bool)
        (s1.onProc fun p => { p with fstat := mode }) := by
  rw [srunnerRunUncheckedSetup, setForkStatus, update_bind, read_bind]
  refine (bind_of_ok _ hset).trans ?_
  rw [srunnerForkStatus, read_bind, setForkStatus, update_bind, hmode]
  cases r <;> rfl

/-- The unchecked setups leave nothing behind that shows in a result. -/
theorem Resting.of_uncheckedSetup {k : Nat} {b : Bool} {r : Option TestResult}
    {tcname tname : CStr} {fs : List (Fixture NestedRun)} {s1 : St List SendMsg NestedRun}
    (hs : Resting x H mode s) (hk : s.now = ⟨k, 0⟩)
    (hrun : srunnerRunUncheckedSetup x (runNested x) tc s = .ok b s')
    (hwalk : fs.findSomeM? (runSetup x (runNested x) .unchSflst .nofork tcname tname)
      (s.onProc fun p => { p with fstat := .nofork }) = .ok r s1)
    (hset : Settled (s.onProc fun p => { p with fstat := .nofork }) s1)
    (hproc : s'.proc = { s1.proc with fstat := mode }) (hlog : s'.sr.loglst = s.sr.loglst) :
    Resting x H mode s' ∧ s'.now = s.now := by
  obtain ⟨⟨hm, hnow⟩, -, hp, -⟩ :=
    srunnerRunUncheckedSetup_ok [] hs.serving.midrun hk hrun
  rw [hs.calm, Bool.and_false] at hp
  obtain ⟨f, hf, hnf⟩ := hset.pipe
  have hs' : Serving x H mode s' := by
    refine ⟨hm, ⟨?_, hm.file1, f, ?_, fun m hm => (hnf m hm).1⟩, hlog.trans hs.serving.loglst, ?_,
      fun _ => hp⟩
    · rw [hproc]
      exact hset.killIn.trans hs.serving.able.killIn
    · rw [hproc]
      exact hf
    · exact congrArg Proc.fstat hproc
  refine ⟨?_, hnow⟩
  obtain rfl | hempty := (findSomeM_runSetup_nofork hwalk).1
  · exact hs.same hs' (by rw [hproc]; rfl)
  · exact .emptied hs' fun f hf => hempty f ((congrArg Proc.getPipe hproc).symm.trans hf)

include hctx hfix in
/-- The unchecked setups: if one of them fails, its failure is recorded. -/
theorem srunnerRunUncheckedSetup_rests {k : Nat} (hs : Resting x H mode s) (hk : s.now = ⟨k, 0⟩) :
    ∃ b s', srunnerRunUncheckedSetup x (runNested x) tc s = .ok b s' ∧ Resting x H mode s' ∧
      s'.now = s.now ∧
      match firstFailure x.cfg ⟨k, 0⟩ (H.lists (.fixtures .unchSflst tc)) with
      | none => b = true ∧ s'.sr.resultlst = s.sr.resultlst
      | some f =>
          b = false ∧ s'.sr.resultlst = s.sr.resultlst ++ [f.setupResult (H.tcName tc)] := by
  let s0 : St List SendMsg NestedRun := s.onProc fun p => { p with fstat := .nofork }
  have hlists : s0.heap.lists (.fixtures .unchSflst tc) = H.lists (.fixtures .unchSflst tc) :=
    congrArg (fun h => h.lists (.fixtures .unchSflst tc)) hs.serving.midrun.heap
  have hname : s.heap.tcName tc = H.tcName tc :=
    congrArg (fun h => h.tcName tc) hs.serving.midrun.heap
  have hnow0 : s0.now = ⟨k, 0⟩ := hk
  obtain ⟨g, hg, -⟩ := hs.serving.able.readable
  obtain ⟨r, s1, hwalk, hset, hrep⟩ := findSomeM_runSetup_plain (x := x) (s := s0) (runNested x)
    .unchSflst (H.tcName tc) (.lit "unchecked_setup") (fun f hf => hnow0 ▸ hfix.setups f hf k) hctx
    (by show ForkStatus.nofork ≠ .fork; decide) hs.serving.able.killIn hg
    (noFail_of_not_pending hs.serving.able hs.calm hg)
  rw [hnow0] at hrep
  have hsetup : srunnerRunSetup x (runNested x) .unchSflst tc .nofork (s.heap.tcName tc)
      (.lit "unchecked_setup") s0 = .ok r s1 := by
    rw [srunnerRunSetup, if_neg (by decide), hname]
    exact (forList_of_lists (x := x) hlists _).trans hwalk
  have hsr1 : s1.sr = s.sr := congrArg (fun m => m.2.1) hset.memory
  have hrun := srunnerRunUncheckedSetup_of_ok hsetup
    ((congrArg (fun r => forkStatusOf x.env r.fstat) hsr1).trans hs.serving.midrun.mode)
  cases hfail : firstFailure x.cfg ⟨k, 0⟩ (H.lists (.fixtures .unchSflst tc)) with
  | none =>
      rw [show firstFailure x.cfg ⟨k, 0⟩ (Lists.elems (H.lists (.fixtures .unchSflst tc))) = none
        from hfail] at hrep
      cases hrep
      obtain ⟨hrest, hnow⟩ :=
        hs.of_uncheckedSetup hk hrun hwalk hset rfl (congrArg SRunner.loglst hsr1)
      exact ⟨true, _, hrun, hrest, hnow, rfl, congrArg SRunner.resultlst hsr1⟩
  | some f =>
      rw [show firstFailure x.cfg ⟨k, 0⟩ (Lists.elems (H.lists (.fixtures .unchSflst tc))) = some f
        from hfail] at hrep
      obtain ⟨tr, rfl, hreported, htc, htn⟩ := hrep
      obtain rfl := Failure.eq_setupResult hreported htc htn
        ((findSomeM_runSetup_nofork hwalk).2 _ rfl)
      -- the failure is added to the results
      obtain ⟨s3, hadd, hproc3, hlog3, hrs3⟩ : ∃ s3,
          srunnerAddFailure (f.setupResult (H.tcName tc))
            (s1.onProc fun p => { p with fstat := mode }) = .ok () s3 ∧
          s3.proc = { s1.proc with fstat := mode } ∧ s3.sr.loglst = s1.sr.loglst ∧
          s3.sr.resultlst = s1.sr.resultlst ++ [f.setupResult (H.tcName tc)] :=
        ⟨_, rfl, rfl, rfl, rfl⟩
      replace hrun := hrun.trans (bind_of_ok _ hadd)
      obtain ⟨hrest, hnow⟩ := hs.of_uncheckedSetup hk hrun hwalk hset hproc3
        (hlog3.trans (congrArg SRunner.loglst hsr1))
      refine ⟨false, s3, hrun, hrest, hnow, rfl, ?_⟩
      rw [hrs3, hsr1]

end

/-! ## parts of a run -/

/-- What is recorded for a unit: the first failure of the setups, or what `T` says of the
code of the test. -/
def Outcome {L : Type → Type} [Lists L] (cfg : Config) (heap : Heap L NestedRun)
    (T : CStr → TestCode NestedRun → TestResult → Prop) : TestUnit → TestResult → Prop
  | .setup k tc, tr => ∃ f,
      firstFailure cfg ⟨k, 0⟩ (Lists.elems (heap.lists (.fixtures .unchSflst tc))) = some f ∧
        tr = f.setupResult (heap.tcName tc)
  | .test now tc tfun i, tr => T (heap.tcName tc) (testCode heap tc tfun i now) tr

section

variable {x : Ctx} {H : Heap List NestedRun} {mode : ForkStatus}
  {T : CStr → TestCode NestedRun → TestResult → Prop} {s s' : St List SendMsg NestedRun}

/-- Each test of the test case has a result that `T` allows, and leaves nothing behind. -/
def Tests (x : Ctx) (H : Heap List NestedRun) (mode : ForkStatus)
    (T : CStr → TestCode NestedRun → TestResult → Prop) (tc : TCaseId) : Prop :=
  ∀ tfun ∈ H.lists (.tflst tc), ∀ i s, Resting x H mode s →
    ∃ tr s', tcaseRunTfun x (runNested x) tc tfun i s = .ok tr s' ∧ Resting x H mode s' ∧
      s'.now = s.now ∧ s'.sr = s.sr ∧ T (H.tcName tc) (testCode H tc tfun i s.now) tr

/-- What the iterations of a test case record. -/
structure Iterates (x : Ctx) (H : Heap List NestedRun)
    (T : CStr → TestCode NestedRun → TestResult → Prop) (tc : TCaseId)
    (s : St List SendMsg NestedRun) (ts : List (TF NestedRun × Int))
    (s' : St List SendMsg NestedRun) : Prop where
  now : s'.now = { s.now with test := s.now.test + ts.length }
  results : ∃ rs, s'.sr.resultlst = s.sr.resultlst ++ rs ∧
    List.Forall₂ (Outcome x.cfg H T) (testUnits tc s.now ts) rs

theorem composes_iterates {tc : TCaseId} : Composes (Iterates x H T tc) where
  refl s := ⟨rfl, [], (List.append_nil _).symm, .nil⟩
  trans := by
    rintro s s' s'' ts ts' ⟨hn, rs, hrs, hu⟩ ⟨hn', rs', hrs', hu'⟩
    refine ⟨?_, rs ++ rs', ?_, ?_⟩
    · rw [hn', hn, List.length_append, Nat.add_assoc]
    · rw [hrs', hrs, List.append_assoc]
    · rw [testUnits_append]
      rw [hn] at hu'
      exact List.rel_append hu hu'

variable {tc : TCaseId} (hctx : ∀ c, Limited x.cfg.maxMsg [.ctx c])
  (hfix : PlainFixtures x.cfg H tc)
  (htests : Tests x H mode T tc)

include htests in
/-- One iteration of a test. -/
theorem iterates_runIteration {tfun : TF NestedRun} (htfun : tfun ∈ H.lists (.tflst tc)) (i : Int) :
    Achieves (Resting x H mode) (Iterates x H T tc) [(tfun, i)]
      (runIteration x (runNested x) tc tfun i) := by
  intro s hs
  let s0 : St List SendMsg NestedRun := St.onProc (Proc.observe x.lvl (.iter tc tfun.ttest.name i))
    { s with now := { s.now with test := s.now.test + 1 } }
  have hs0 : Resting x H mode s0 := (hs.numbered _).observe _
  have hname0 : ∀ lfun, lfunStop lfun
      (.testName (testStartName (s0.heap.tcName tc) tfun.ttest.name)) = none := fun lfun => by
    cases lfun <;> rfl
  obtain ⟨s1, hstart, hs1, hnow1, hsr1⟩ := hs0.sendEvt .startT hname0
  obtain ⟨tr, s2, htest, hs2, hnow2, hsr2, hT⟩ := htests tfun htfun i s1 hs1
  have hname := (tcaseRunTfun_names hs1.serving.midrun.mode hs1.serving.able.file1 htest).1
  have hclass : tr.Classified := returns_tcaseRunTfun ⟨_, _, htest⟩
  -- its result
  obtain ⟨s3, hadd, hserving3, hnow3, hproc3, hrs3⟩ := hs2.serving.addFailure tr
  have hs3 : Resting x H mode s3 := hs2.same hserving3 (congrArg Proc.getPipe hproc3)
  obtain ⟨s4, hend, hs4, hnow4, hsr4⟩ := hs3.sendEvt .endT
    (lfunStop_classified hclass (by rw [hname]; exact Option.some_ne_none _))
  have hnow : s1.now = { s.now with test := s.now.test + 1 } := hnow1
  refine ⟨(), s4, ?_, hs4, ?_, [tr], ?_, ?_⟩
  · rw [runIteration, update_bind, update_bind, logTestStart]
    have hlog : (do
        let tcname ← read fun s => s.heap.tcName tc
        srunnerSendEvt x (.testName (testStartName tcname tfun.ttest.name)) .startT :
          RunM List SendMsg NestedRun Unit) s0 = .ok () s1 := hstart
    rw [bind_of_ok _ hlog, bind_of_ok _ htest, bind_of_ok _ hadd]
    exact hend
  · rw [hnow4, hnow3, hnow2, hnow]
    rfl
  · rw [hsr4, hrs3, hsr2, hsr1]
    rfl
  · rw [hnow] at hT
    exact .cons hT .nil

/-- What the steps of a plan record. -/
structure Records (x : Ctx) (H : Heap List NestedRun)
    (T : CStr → TestCode NestedRun → TestResult → Prop) (s : St List SendMsg NestedRun)
    (ks : List RunStep) (s' : St List SendMsg NestedRun) : Prop where
  carried : (s'.now.tcrun, false) = ks.foldl (carry H) (s.now.tcrun, false)
  results : ∃ rs, s'.sr.resultlst = s.sr.resultlst ++ rs ∧
    List.Forall₂ (Outcome x.cfg H T) (planUnits H (s.now.tcrun, false) ks) rs

theorem composes_records : Composes (Records x H T) where
  refl s := ⟨rfl, [], (List.append_nil _).symm, .nil⟩
  trans := by
    rintro s s' s'' ks ks' ⟨hc, rs, hrs, hu⟩ ⟨hc', rs', hrs', hu'⟩
    rw [hc] at hc' hu'
    refine ⟨by rw [hc', List.foldl_append], rs ++ rs', ?_, ?_⟩
    · rw [hrs', hrs, List.append_assoc]
    · rw [planUnits_append]
      exact List.rel_append hu hu'

theorem fixturesFail_eq {L : Type → Type} [Lists L] (cfg : Config) {heap : Heap L NestedRun}
    {fl : FixtureList} {k : Nat} {tc : TCaseId}
    (h : ∀ f ∈ Lists.elems (heap.lists (.fixtures fl tc)), Plain (f.sfun.acts ⟨k, 0⟩)) :
    fixturesFail heap fl k tc =
      (firstFailure cfg ⟨k, 0⟩ (Lists.elems (heap.lists (.fixtures fl tc)))).isSome := by
  rw [fixturesFail, firstFailure]
  generalize Lists.elems (heap.lists (.fixtures fl tc)) = fs at h ⊢
  induction fs with
  | nil => rfl
  | cons f fs ih =>
      rw [List.any_cons, List.findSome?_cons, (h f List.mem_cons_self).fails_eq cfg,
        ih fun f' hf' => h f' (List.mem_cons_of_mem f hf')]
      cases failureOf cfg (f.sfun.acts ⟨k, 0⟩) <;> rfl

theorem PlainFixtures.leftBehind (hfix : PlainFixtures x.cfg H tc) (k : Nat) :
    leftBehind H k false tc = false := by
  rw [LibCheck.leftBehind, hfix.not_fail]
  simp

include hctx hfix htests in
/-- A test case. -/
theorem records_srunnerRunTcase :
    Achieves (Resting x H mode) (Records x H T) [.tcase tc]
      (srunnerRunTcase x (runNested x) tc) := by
  intro s hs
  let k := s.now.tcrun + 1
  let s0 : St List SendMsg NestedRun := St.onProc (Proc.observe x.lvl (.tcase tc))
    { s with now := ⟨k, 0⟩ }
  have hs0 : Resting x H mode s0 := (hs.numbered _).observe _
  have hrun : srunnerRunTcase x (runNested x) tc s = runTcase x (runNested x) tc s0 := rfl
  -- what is to be shown, once the test case has returned
  have hdone : ∀ {s' : St List SendMsg NestedRun} (rs : List TestResult), s'.now.tcrun = k →
      s'.sr.resultlst = s.sr.resultlst ++ rs →
      List.Forall₂ (Outcome x.cfg H T) (caseUnits H k tc) rs → Records x H T s [.tcase tc] s' := by
    intro s' rs hk' hrs hu
    refine ⟨?_, rs, hrs, ?_⟩
    · rw [hk', List.foldl_cons, List.foldl_nil, carry, hfix.leftBehind]
    · rw [planUnits, foreseen, foreseen, List.flatMap_singleton]
      exact hu
  have hunits : caseUnits H k tc =
      if (firstFailure x.cfg ⟨k, 0⟩ (H.lists (.fixtures .unchSflst tc))).isSome then [.setup k tc]
      else testUnits tc ⟨k, 0⟩ (iterations H tc) := by
    rw [caseUnits, fixturesFail_eq x.cfg fun f hf => (hfix.setups f hf _).1]
    rfl
  obtain ⟨b, s1, hset, hs1, hnow1, hsetup⟩ :=
    srunnerRunUncheckedSetup_rests hctx hfix (k := k) hs0 rfl
  replace hnow1 : s1.now = ⟨k, 0⟩ := hnow1
  rw [hrun, runTcase]
  cases hfail : firstFailure x.cfg ⟨k, 0⟩ (H.lists (.fixtures .unchSflst tc)) with
  | some f =>
      rw [hfail] at hsetup hunits
      obtain ⟨rfl, hrs1⟩ := hsetup
      refine ⟨(), s1, bind_of_ok _ hset, hs1, hdone _ (by rw [hnow1]) hrs1 ?_⟩
      rw [hunits]
      exact .cons ⟨f, hfail, rfl⟩ .nil
  | none =>
      rw [hfail] at hsetup hunits
      obtain ⟨rfl, hrs1⟩ := hsetup
      have hP : Composes (Iterates x H T tc) := composes_iterates
      obtain ⟨_, s2, hiter, hs2, hnow2, rs, hrs2, hu⟩ := does_iterations (Achieves.sequences hP)
        (fun _ hs => hs.serving.midrun.heap) (fun _ htfun i => iterates_runIteration htests htfun i)
        s1 hs1
      let s3 : St List SendMsg NestedRun := { s2 with now := { s2.now with test := 0 } }
      have hs3 : Resting x H mode s3 := hs2.numbered _
      have hk3 : s3.now = ⟨k, 0⟩ := by
        show ({ s2.now with test := 0 } : When) = ⟨k, 0⟩
        rw [hnow2, hnow1]
      obtain ⟨s4, htear, hs4, hnow4, hsr4⟩ := srunnerRunUncheckedTeardown_rests hctx hfix hs3 hk3
      refine ⟨(), s4, ?_, hs4, hdone rs ?_ ?_ ?_⟩
      · rw [bind_of_ok _ hset, if_pos rfl, bind_of_ok _ hiter, update_bind]
        exact htear
      · rw [hnow4, hk3]
      · rw [hsr4]
        show s2.sr.resultlst = _
        rw [hrs2, hrs1]
        rfl
      · rw [hunits, if_neg (by decide), ← hnow1]
        exact hu

/-- An event at the begin or the end of a suite. -/
theorem records_sendEvt {step : RunStep} (hstep : step.tcase? = none)
    {y : RunM List SendMsg NestedRun Unit}
    (hy : ∀ s, ∃ obj evt, (∀ lfun, lfunStop lfun obj = none) ∧ y s = srunnerSendEvt x obj evt s) :
    Achieves (Resting x H mode) (Records x H T) [step] y := by
  intro s hs
  obtain ⟨obj, evt, hobj, hys⟩ := hy s
  obtain ⟨s', hsend, hs', hnow, hsr⟩ := hs.sendEvt evt hobj
  refine ⟨(), s', hys.trans hsend, hs', ?_, [], ?_, ?_⟩
  · rw [hnow]
    cases step <;> first | rfl | cases hstep
  · rw [hsr, List.append_nil]
  · cases step <;> first | exact .nil | cases hstep

end

/-! ## runs -/

namespace SameCases

variable {L L' : Type → Type} [Lists L] [Lists L'] {H : Heap L NestedRun} {K : Heap L' NestedRun}
  (h : SameCases H K)
include h

theorem trans {L'' : Type → Type} [Lists L''] {M : Heap L'' NestedRun} (h' : SameCases K M) :
    SameCases H M :=
  ⟨h'.1.trans h.1, h'.2.1.trans h.2.1, fun r h1 h2 => (h'.2.2 r h1 h2).trans (h.2.2 r h1 h2)⟩

theorem plainFixtures {cfg : Config} {tc : TCaseId} (hp : PlainFixtures cfg H tc) :
    PlainFixtures cfg K tc where
  setups := by
    rw [h.fixtures]
    exact hp.setups
  teardowns := by
    rw [h.fixtures]
    exact hp.teardowns

theorem outcome (cfg : Config) (T : CStr → TestCode NestedRun → TestResult → Prop) :
    Outcome cfg K T = Outcome cfg H T := by
  funext u tr
  cases u with
  | setup k tc => rw [Outcome, Outcome, h.fixtures, h.2.1]
  | test now tc tfun i => rw [Outcome, Outcome, h.testCode_eq, h.2.1]

end SameCases

section

variable {x : Ctx} {mode : ForkStatus} {s : St List SendMsg NestedRun} {a : RunArgs}
  {tags : TCaseId → Option CStr} {T : CStr → TestCode NestedRun → TestResult → Prop}
  (hctx : ∀ c, Limited x.cfg.maxMsg [.ctx c])

include hctx in
/-- The loop over the suites. -/
theorem srunnerIterateSuites_records (hs : Resting x s.heap mode s)
    (htags : ∀ tc, s.heap.lists (.tags tc) = tagStringToList (tags tc))
    (hfix : ∀ tc, .tcase tc ∈ plan a s.heap tags → PlainFixtures x.cfg s.heap tc)
    (htests : ∀ tc, .tcase tc ∈ plan a s.heap tags → ∀ H, SameCases s.heap H →
      Tests x H mode T tc) :
    ∃ s', srunnerIterateSuites x (runNested x) a s = .ok () s' ∧ Serving x s'.heap mode s' ∧
      Records x s.heap T s (plan a s.heap tags) s' := by
  have hsame : SameCases s.heap (loadTags a s).heap :=
    SameCases.loadTags (H := s.heap) ⟨rfl, rfl, fun _ _ _ => rfl⟩ a
  have hs0 : Resting x (loadTags a s).heap mode (loadTags a s) :=
    ⟨⟨⟨rfl, hs.serving.midrun.file1, hs.serving.midrun.mode⟩,
      ⟨hs.serving.able.killIn, hs.serving.able.file1, hs.serving.able.readable⟩,
      hs.serving.loglst, hs.serving.fstat, hs.serving.quiet⟩, hs.calm, hs.blank⟩
  have hP : Composes (Records x (loadTags a s).heap T) := composes_records
  have hall := does_suites (Achieves.sequences hP) (I := Resting x (loadTags a s).heap mode)
    (fun _ hs => hs.serving.midrun.heap) (tagged_loadTags htags)
    (fun su => records_sendEvt rfl fun s =>
      ⟨.suite su (s.heap.suiteName su), .startS, fun lfun => by cases lfun <;> rfl, rfl⟩)
    (fun su => records_sendEvt rfl fun s =>
      ⟨.suite su (s.heap.suiteName su), .endS, fun lfun => by cases lfun <;> rfl, rfl⟩)
    fun tc htc => records_srunnerRunTcase hctx
      (hsame.plainFixtures (hfix tc (hsame.plan a tags ▸ htc)))
      (htests tc (hsame.plan a tags ▸ htc) _ hsame)
  obtain ⟨b, s1, hrun, hs1, hc1, rs, hrs1, hu⟩ := hall (loadTags a s) hs0
  rw [hsame.plan, hsame.carry] at hc1
  rw [hsame.plan, hsame.planUnits, hsame.outcome] at hu
  refine ⟨freeTags s1, ?_, ?_, hc1, rs, hrs1, hu⟩
  · rw [srunnerIterateSuites_apply, hrun]
  · exact ⟨⟨rfl, hs1.serving.midrun.file1, hs1.serving.midrun.mode⟩,
      ⟨hs1.serving.able.killIn, hs1.serving.able.file1, hs1.serving.able.readable⟩,
      hs1.serving.loglst, hs1.serving.fstat, hs1.serving.quiet⟩

include hctx in
/-- **A run records what its units record**, one after the other, on the abstract
machine. -/
theorem srunnerRunTagged_outcomes (h2 : s.proc.sendFile2 = none) (hlive : s.proc.killIn = none)
    (htags : ∀ tc, s.heap.lists (.tags tc) = tagStringToList (tags tc))
    (hfix : ∀ tc, .tcase tc ∈ plan (effectiveArgs x.env a) s.heap tags →
      PlainFixtures x.cfg s.heap tc)
    (htests : ∀ tc, .tcase tc ∈ plan (effectiveArgs x.env a) s.heap tags →
      ∀ H, SameCases s.heap H → Tests x H (forkStatusOf x.env s.sr.fstat) T tc) :
    ∃ s', srunnerRunTagged x (runNested x) a s = .ok () s' ∧
      ∃ rs, s'.sr.resultlst = s.sr.resultlst ++ rs ∧
        List.Forall₂ (Outcome x.cfg s.heap T)
          (planUnits s.heap (s.now.tcrun, false) (plan (effectiveArgs x.env a) s.heap tags))
          rs := by
  have hnull : ∀ lfun, lfunStop lfun .null = none := fun lfun => by cases lfun <;> rfl
  -- the message file is opened, the loggers are registered
  obtain ⟨s1, hsetup, hable1, hmem1, -, hfst1, hp1⟩ := setupPipe_able (s := runStart x s) h2 hlive
  have hsr1 : s1.sr = s.sr := congrArg (fun m => m.2.1) hmem1
  have hheap1 : s1.heap = s.heap := congrArg (fun m => m.1) hmem1
  have hnow1 : s1.now = s.now := congrArg (fun m => m.2.2) hmem1
  have hempty1 : Emptied s1 := emptied_setupPipe (s := runStart x s) h2 hsetup
  let lgs := registered x s1.sr a.printMode
  have hsame : SameCases s.heap (logging lgs s1).heap := by
    have hrefl : SameCases s.heap s1.heap := hheap1 ▸ ⟨rfl, rfl, fun _ _ _ => rfl⟩
    exact hrefl.setList .loglst lgs (.inl rfl)
  have hs1 : Resting x (logging lgs s1).heap (forkStatusOf x.env s.sr.fstat) (logging lgs s1) :=
    .emptied ⟨⟨rfl, hable1.file1, congrArg (fun r => forkStatusOf x.env r.fstat) hsr1⟩,
      ⟨hable1.killIn, hable1.file1, hable1.readable⟩, rfl, hfst1, fun _ => hp1⟩
      hempty1
  obtain ⟨s2, hinit, hs2, hnow2, hsr2⟩ := hs1.sendEvt .initlogSr hnull
  obtain ⟨s3, hstart, hs3, hnow3, hsr3⟩ := hs2.sendEvt .startSr hnull
  -- the suites
  have hheap3 : s3.heap = (logging lgs s1).heap := hs3.serving.midrun.heap
  have hsame3 : SameCases s.heap s3.heap := hheap3 ▸ hsame
  have htags3 : ∀ tc, s3.heap.lists (.tags tc) = tagStringToList (tags tc) := fun tc =>
    (hsame3.2.2 (.tags tc) (fun he => nomatch he) (fun _ he => nomatch he)).trans (htags tc)
  obtain ⟨s4, hsuites, hs4, -, rs, hrs4, hu⟩ :=
    srunnerIterateSuites_records (a := effectiveArgs x.env a) (T := T) hctx (hheap3 ▸ hs3) htags3
      (fun tc htc => hsame3.plainFixtures (hfix tc (hsame3.plan _ tags ▸ htc)))
      fun tc htc H hH => htests tc (hsame3.plan _ tags ▸ htc) H (hsame3.trans hH)
  have hc3 : s3.now.tcrun = s.now.tcrun := by
    rw [hnow3, hnow2]
    exact congrArg When.tcrun hnow1
  rw [hsame3.plan, hsame3.planUnits, hsame3.outcome, hc3] at hu
  obtain ⟨s5, hend, hrs5, -⟩ := srunnerRunEnd_calls hs4
  refine ⟨s5, ?_, rs, ?_, hu⟩
  · have hlog : srunnerInitLogging x a.printMode s1 = .ok () s2 := by
      rw [srunnerInitLogging_apply]
      exact hinit
    have hbody : srunnerRunTagged x (runNested x) a s = (do
        setupPipe
        srunnerInitLogging x a.printMode
        logSrunnerStart x
        srunnerIterateSuites x (runNested x) (effectiveArgs x.env a)
        logSrunnerEnd x
        srunnerEndLogging x
        teardownPipe
        update runFinish : RunM List SendMsg NestedRun Unit) (runStart x s) := by
      rw [srunnerRunTagged_eq]
      simp only [runBody, bind_assoc]
    rw [hbody, bind_of_ok _ hsetup, bind_of_ok _ hlog,
      bind_of_ok _ (show logSrunnerStart x s2 = .ok () s3 from hstart), bind_of_ok _ hsuites]
    exact hend
  · rw [hrs5, hrs4, hsr3, hsr2]
    show s1.sr.resultlst ++ rs = _
    rw [hsr1]

end

end LibCheck
