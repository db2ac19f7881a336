import LibCheck.Receiver
import LibCheck.Reentry

/-!
# LibCheck.Duration

How long a test may run and still pass.

The time between the two clock readings around a test is computed in `time_t`,
passed on as an `int`, and refused by `pack_duration` when it has turned
negative.

* `diffInUsec_eq` — the readings give the difference of the whole microseconds.
* `Completes` — the fixtures and the body of a test complete normally.
* `duration_kept_iff` — such a test passes and keeps its duration if and only
  if it took less than `2 ^ 31` microseconds.
* `tcaseRunTfun_modes_agree_iff` — both modes report the same of an ordinary test of plain
  functions if and only if one fails or the duration has not turned negative.
-/

namespace LibCheck

open Prog

/-! ## the clock -/

namespace Timespec

/-- The nanoseconds are those of a second. -/
def Valid (t : Timespec) : Prop := 0 ≤ t.tvNsec ∧ t.tvNsec < 1000000000

/-- The reading in nanoseconds. -/
def ns (t : Timespec) : Int := t.tvSec * 1000000000 + t.tvNsec

/-- The whole microseconds of a reading. -/
def usec (t : Timespec) : Int := t.ns / 1000

end Timespec

/-- `DIFF_IN_USEC` carries over between seconds and nanoseconds as it should. -/
theorem diffInUsec_eq {b e : Timespec} (hb : b.Valid) (he : e.Valid) :
    diffInUsec b e = e.usec - b.usec := by
  rw [diffInUsec, Int.tdiv_eq_ediv_of_nonneg hb.1, Int.tdiv_eq_ediv_of_nonneg he.1]
  simp only [Timespec.usec, Timespec.ns]
  omega

theorem usec_mono {b e : Timespec} (h : b.ns ≤ e.ns) : b.usec ≤ e.usec := by
  simp only [Timespec.usec]
  omega

/-- The `int` that is passed on is the number of microseconds while these fit. -/
theorem toInt_ofInt_eq_iff {d : Int} (hd : 0 ≤ d) : (Int32.ofInt d).toInt = d ↔ d < 2 ^ 31 := by
  have hsize : Int32.size = 2 ^ 32 := rfl
  rw [Int32.toInt_ofInt, hsize, Int.bmod_def]
  split <;> omega

/-! ## files without a failure -/

/-- No failure is waiting in the current message file, and the context that was
announced last satisfies `C`. -/
def Proc.Quiet (C : CkResultCtx → Prop) (p : Proc SendMsg) : Prop :=
  ∃ f, p.getPipe = some f ∧ NoFail f.content ∧ C (received rcvmsgCreate f.content).lastctx

theorem Proc.Readable.quiet {p : Proc SendMsg} (h : p.Readable) (hp : p.pending = false) :
    p.Quiet fun _ => True := by
  obtain ⟨f, hf, hnn⟩ := h
  refine ⟨f, hf, fun m hm => ⟨hnn m hm, ?_⟩, trivial⟩
  rintro t rfl
  rw [Proc.pending, hf] at hp
  exact absurd rfl (List.any_eq_false.mp hp _ hm)

section

variable {x : Ctx} {s s' : St List SendMsg NestedRun} {C : CkResultCtx → Prop}

theorem Proc.Quiet.send {m : SendMsg} (hs : s.proc.Quiet C) (hnn : m.NonNeg)
    (hm : ∀ t, m ≠ .fail t) (h : sendMsg x m s = .ok () s') :
    s'.proc.Quiet fun c => ∃ c', C c' ∧ c = (ctx? m).getD c' := by
  obtain ⟨f, hf, hno, hc⟩ := hs
  obtain ⟨g, hg, hcont⟩ := sendMsg_content hf h
  refine ⟨g, hg, ?_, _, hc, ?_⟩
  · rw [hcont]
    exact List.forall_mem_append.mpr ⟨hno, List.forall_mem_singleton.mpr ⟨hnn, hm⟩⟩
  · rw [hcont, received_append, received_cons, received_nil, lastctx_applyMsg]

theorem Proc.Quiet.sendLoc {loc : SrcLoc} (hs : s.proc.Quiet C)
    (h : sendLocInfo x loc s = .ok () s') : s'.proc.Quiet C := by
  obtain ⟨f, hf, hno, c, hc, heq⟩ := hs.send loc.nonNeg_msg (fun _ he => nomatch he) h
  refine ⟨f, hf, hno, ?_⟩
  rw [heq]
  exact hc

theorem Proc.Quiet.sendCtx {c : CkResultCtx} (hs : s.proc.Quiet C)
    (h : sendCtxInfo x c s = .ok () s') : s'.proc.Quiet (· = c) := by
  obtain ⟨f, hf, hno, c', -, heq⟩ := hs.send (nonNeg_ctx c) (fun _ he => nomatch he) h
  exact ⟨f, hf, hno, heq⟩

/-- A function that returns adds no failure and announces nothing. -/
theorem runFun_quiet {acts : List (Act NestedRun)} (h1 : s.proc.sendFile1.isSome)
    (hs : s.proc.Quiet C) (h : runFun x (runNested x) acts s = .ok false s') :
    s'.proc.Quiet C := by
  induction acts generalizing s with
  | nil =>
      cases h
      exact hs
  | cons act acts ih =>
      cases act with
      | markPoint loc =>
          obtain ⟨_, s1, hsend, h⟩ := bind_eq_ok.mp h
          exact ih (sendMsg_file1 h1 hsend) (hs.sendLoc hsend) h
      | assertFailed loc expr msg =>
          obtain ⟨_, s1, -, h⟩ := bind_eq_ok.mp h
          cases h
      | exit status =>
          obtain ⟨_, s1, -, h⟩ := bind_eq_ok.mp h
          cases h
      | raise sig => cases h
      | call c =>
          obtain ⟨_, s1, hcall, h⟩ := bind_eq_ok.mp h
          obtain ⟨f, hf⟩ := Option.isSome_iff_exists.mp h1
          obtain ⟨hnone, hf1, hf2, -⟩ := runNested_ok hf hcall
          have hpipe : s1.proc.getPipe = s.proc.getPipe := by
            rw [Proc.getPipe, Proc.getPipe, hf1, hf2, hf, hnone]
          refine ih (by rw [hf1]; rfl) ?_ h
          rw [Proc.Quiet, hpipe]
          exact hs

theorem callTest_quiet {tfun : TF NestedRun} {i : Int} (h1 : s.proc.sendFile1.isSome)
    (hs : s.proc.Quiet C) (h : callTest x (runNested x) tfun i s = .ok false s') :
    s'.proc.Quiet (· = .test) := by
  obtain ⟨_, s1, hctx, h⟩ := bind_eq_ok.mp h
  obtain ⟨_, s2, hloc, h⟩ := bind_eq_ok.mp h
  rw [update_bind, read_bind] at h
  have hfile : s2.proc.sendFile1.isSome := sendMsg_file1 (sendMsg_file1 h1 hctx) hloc
  have hquiet : s2.proc.Quiet (· = .test) := (hs.sendCtx hctx).sendLoc hloc
  exact runFun_quiet (s := s2.onProc (Proc.observe x.lvl (.body tfun.ttest.name i))) hfile hquiet h

/-- Setups in the same process that pass. -/
theorem setups_quiet_nofork {fl : FixtureList} {tname sname : CStr}
    (fs : List (Fixture NestedRun)) (h1 : s.proc.sendFile1.isSome)
    (hs : s.proc.Quiet fun _ => True)
    (h : fs.findSomeM? (runSetup x (runNested x) fl .nofork tname sname) s = .ok none s') :
    s'.proc.Quiet fun _ => True := by
  induction fs generalizing s with
  | nil =>
      cases h
      exact hs
  | cons f fs ih =>
      obtain ⟨r, s1, hf, h⟩ := bind_eq_ok.mp h
      cases r with
      | some tr => cases h
      | none =>
          exact ih ((silent_runSetup hf).file1 h1)
            ((runSetup_fstat h1 hf).2.quiet (runSetup_pending h1 hf).2) h

/-- Setups in the process of a forked test. -/
theorem setups_quiet_fork {fl : FixtureList} {tname sname : CStr}
    (fs : List (Fixture NestedRun)) {r : Option TestResult} (h1 : s.proc.sendFile1.isSome)
    (hs : s.proc.Quiet C)
    (h : fs.findSomeM? (runSetup x (runNested x) fl .fork tname sname) s = .ok r s') :
    s'.proc.Quiet C := by
  induction fs generalizing s with
  | nil =>
      cases h
      exact hs
  | cons f fs ih =>
      obtain ⟨r1, s1, hf, h⟩ := bind_eq_ok.mp h
      have hfile := (silent_runSetup hf).file1 h1
      rw [runSetup, if_neg (by decide)] at hf
      obtain ⟨_, s2, hcall, hf⟩ := bind_eq_ok.mp hf
      cases hf
      obtain ⟨b, s3, hcall, hb⟩ := bind_eq_ok.mp hcall
      cases b with
      | true => cases hb
      | false =>
          cases hb
          have hquiet := runFun_quiet (s := s.onProc
              (Proc.observe x.lvl (.fixture fl f.sfun.addr))) h1
            hs hcall
          exact ih hfile hquiet h

/-- Teardowns that pass. -/
theorem teardowns_quiet {fl : FixtureList} (fs : List (Fixture NestedRun))
    (h1 : s.proc.sendFile1.isSome) (hC : C .teardown) (hs : s.proc.Quiet C)
    (h : fs.findSomeM? (runTeardown x (runNested x) fl .nofork) s = .ok none s') :
    s'.proc.Quiet C := by
  induction fs generalizing s with
  | nil =>
      cases h
      exact hs
  | cons f fs ih =>
      obtain ⟨r, s1, hf, h⟩ := bind_eq_ok.mp h
      have hfile := (silent_runTeardown hf).file1 h1
      obtain ⟨_, s2, hsend, hf⟩ := bind_eq_ok.mp hf
      rw [if_pos rfl] at hf
      obtain ⟨b, s3, hcall, hf⟩ := bind_eq_ok.mp hf
      have hfile2 : s2.proc.sendFile1.isSome := sendMsg_file1 h1 hsend
      have hsent : s2.proc.Quiet C := by
        obtain ⟨g, hg, hno, hc⟩ := hs.sendCtx hsend
        exact ⟨g, hg, hno, hc ▸ hC⟩
      cases b with
      | true =>
          cases hf
          cases h
      | false =>
          cases hf
          rw [protect_callFixture_apply] at hcall
          exact ih hfile (runFun_quiet (s := entered x (.fixture fl f.sfun.addr) s2) hfile2 hsent
            hcall) h

end

/-! ## tests that complete normally -/

section

variable {L : Type → Type} {β ν : Type} [Lists L] [Wire β]

/-- The fixtures and the body of a test in the given mode, as its process runs
them; whether all of them complete normally. -/
def runsThrough (x : Ctx) (call : ν → RunM L β ν Unit) (mode : ForkStatus) (tc : TCaseId)
    (tfun : TF ν) (i : Int) : RunM L β ν Bool := do
  match ← tcaseRunCheckedSetup x call tc with
  | some _ => pure false
  | none => do
      if ← (if mode = .nofork then protect x (callTest x call tfun i)
          else callTest x call tfun i) then
        pure false
      else do
        let r ← forList x (.fixtures .chTflst tc) (runTeardown x call .chTflst .nofork)
        pure r.isNone

end

theorem sim_runsThrough {ν : Type} {x : Ctx} {call : ν → RunM CkList UInt8 ν Unit}
    {call' : ν → RunM List SendMsg ν Unit} (hkeep : SparesCase call)
    (hsim : ∀ c, Sim (StRel x.cfg) (call c) (call' c)) (mode : ForkStatus) (tc : TCaseId)
    (tfun : TF ν) (i : Int) :
    Sim (StRel x.cfg) (runsThrough x call mode tc tfun i) (runsThrough x call' mode tc tfun i) := by
  refine Sim.bind (sim_tcaseRunCheckedSetup hkeep hsim tc) fun r => ?_
  cases r with
  | some tr => exact Sim.pure _
  | none =>
      refine Sim.bind (Sim.ite (sim_protect (sim_callTest hsim tfun i)) (sim_callTest hsim tfun i))
        fun b => Sim.ite (Sim.pure _) ?_
      exact Sim.bind (sim_forList
        (keeps_runTeardown (Outer.list (Nat.le_refl 1)).memory (keeps_fixtures hkeep _ _) _ _)
        (sim_runTeardown hsim _ _)) fun _ => Sim.pure _

section

variable {x : Ctx} {s c : St List SendMsg NestedRun} {tc : TCaseId} {tfun : TF NestedRun} {i : Int}

theorem TestClosed.runsThrough {P : ∀ {α : Type}, RunM List SendMsg NestedRun α → Prop}
    (h : TestClosed x (runNested x) P) (mode : ForkStatus) (tc : TCaseId) (tfun : TF NestedRun)
    (i : Int) : P (runsThrough x (runNested x) mode tc tfun i) := by
  refine h.bind (h.tcaseRunCheckedSetup tc) fun r _ => ?_
  cases r with
  | some tr => exact h.pure _
  | none =>
      exact h.bind (SeqClosed.ite (h.protect (h.callTest tfun i)) (h.callTest tfun i)) fun _ _ =>
        SeqClosed.ite (h.pure _)
          (h.bind (h.forList _ _ (h.runTeardown _ _)) fun _ _ => h.pure _)

/-- The three parts of a test that completes normally. -/
theorem runsThrough_ok {mode : ForkStatus}
    (h : runsThrough x (runNested x) mode tc tfun i s = .ok true c) :
    ∃ s1 s2, tcaseRunCheckedSetup x (runNested x) tc s = .ok none s1 ∧
      (if mode = .nofork then protect x (callTest x (runNested x) tfun i)
        else callTest x (runNested x) tfun i) s1 = .ok false s2 ∧
      forList x (.fixtures .chTflst tc) (runTeardown x (runNested x) .chTflst .nofork) s2 =
        .ok none c := by
  obtain ⟨r, s1, hsetup, h⟩ := bind_eq_ok.mp h
  cases r with
  | some tr => cases h
  | none =>
      obtain ⟨b, s2, hbody, h⟩ := bind_eq_ok.mp h
      cases b with
      | true => cases h
      | false =>
          obtain ⟨r, s3, htear, h⟩ := bind_eq_ok.mp h
          cases r with
          | some u => cases h
          | none =>
              cases h
              exact ⟨s1, s2, hsetup, hbody, htear⟩

/-- After such a test, no failure is waiting, and the last context is not that of
the setups. -/
theorem runsThrough_quiet {mode : ForkStatus} (hmode : mode ≠ .getenv)
    (hsr : forkStatusOf x.env s.sr.fstat = mode) (h1 : s.proc.sendFile1.isSome)
    (hs : s.proc.Quiet fun _ => True)
    (h : runsThrough x (runNested x) mode tc tfun i s = .ok true c) :
    c.proc.Quiet fun c => c = .test ∨ c = .teardown := by
  obtain ⟨s1, s2, hsetup, hbody, htear⟩ := runsThrough_ok h
  have hsil1 : Silent x s s1 := silent_of_closed (fun _ hP => hP.tcaseRunCheckedSetup tc) hsetup
  have hsil2 : Silent x s1 s2 := silent_of_closed
    (fun _ hP => SeqClosed.ite (hP.protect (hP.callTest tfun i)) (hP.callTest tfun i)) hbody
  have hquiet1 : s1.proc.Quiet fun _ => True := by
    rw [tcaseRunCheckedSetup, srunnerForkStatus, read_bind, read_bind, hsr,
      srunnerRunSetup] at hsetup
    cases mode with
    | getenv => exact absurd rfl hmode
    | nofork =>
        rw [if_neg (by decide)] at hsetup
        exact setups_quiet_nofork (s.heap.lists (.fixtures .chSflst tc)) h1 hs hsetup
    | fork =>
        rw [if_pos rfl] at hsetup
        obtain ⟨_, t, hsend, hsetup⟩ := bind_eq_ok.mp hsetup
        obtain ⟨f, hf, hno, -⟩ := setups_quiet_fork (t.heap.lists (.fixtures .chSflst tc))
          (sendMsg_file1 h1 hsend) (hs.sendCtx hsend) hsetup
        exact ⟨f, hf, hno, trivial⟩
  have hquiet2 : s2.proc.Quiet (· = .test) := by
    have hfile := hsil1.file1 h1
    by_cases hm : mode = .nofork
    · rw [if_pos hm] at hbody
      have hjmp : (s1.onProc fun p =>
          { p with errorJmpBuffer := some x.lvl }).proc.sendFile1.isSome := hfile
      have hquiet : (s1.onProc fun p => { p with errorJmpBuffer := some x.lvl }).proc.Quiet
          fun _ => True := hquiet1
      exact callTest_quiet hjmp hquiet hbody
    · rw [if_neg hm] at hbody
      exact callTest_quiet hfile hquiet1 hbody
  obtain ⟨f, hf, hno, hc⟩ := hquiet2
  exact teardowns_quiet (s2.heap.lists (.fixtures .chTflst tc)) (hsil2.file1 (hsil1.file1 h1))
    (.inr rfl) ⟨f, hf, hno, .inl hc⟩ htear

/-- A test that completes normally in the process of the runner. -/
theorem tcaseRunTfunNofork_completes (h1 : s.proc.sendFile1.isSome)
    (hsr : forkStatusOf x.env s.sr.fstat = .nofork) (hs : s.proc.Quiet fun _ => True)
    (h : runsThrough x (runNested x) .nofork tc tfun i s = .ok true c) :
    ∃ tr s', tcaseRunTfunNofork x (runNested x) tc tfun i s = .ok tr s' ∧ tr.rtype = .pass ∧
      tr.duration = testDuration x s.now := by
  obtain ⟨f, hf, hno, hc⟩ := runsThrough_quiet (by decide) hsr h1 hs h
  have hnow : c.now = s.now := (silent_of_closed
      (fun _ hP => hP.runsThrough .nofork tc tfun i) h).now
  obtain ⟨s1, s2, hsetup, hbody, htear⟩ := runsThrough_ok h
  rw [if_pos rfl] at hbody
  have hne : (received rcvmsgCreate f.content).lastctx ≠ .invalid := by
    rcases hc with hc | hc <;> rw [hc] <;> decide
  obtain ⟨_, hclean⟩ := RcvMsg.clean_rcvmsgCreate.received fun m hm => (hno m hm).2
  have hmsg : (constructTestResult (received rcvmsgCreate f.content) false).msg = none := by
    rw [constructTestResult_msg, hclean.msg]
  have hrcv := receiveTestResult_of_nonNeg (x := x) hf (fun m hm => (hno m hm).1) hne false
  have hrun : tcaseRunTfunNofork x (runNested x) tc tfun i s =
      receiveResultInfoNofork x (c.heap.tcName tc) tfun.ttest.name i (testDuration x c.now) c :=
    (bind_of_ok _ hsetup).trans ((bind_of_ok _ hbody).trans (bind_of_ok _ (bind_of_ok _ htear)))
  rw [hrun, receiveResultInfoNofork]
  refine ⟨_, _, bind_of_ok _ hrcv, ?_⟩
  rw [setNoforkInfo, if_pos hmsg]
  refine ⟨rfl, ?_⟩
  rw [hnow]

/-- The current message file of a process that only wrote to its files. -/
theorem SentTo.getPipe {p q : Proc SendMsg} {ms : List SendMsg} {f : Pipe SendMsg}
    (h : SentTo p ms q) (hp : p.getPipe = some f) :
    q.getPipe = some { f with content := f.content ++ ms } := by
  obtain ⟨hf1, hf2⟩ := h
  cases e2 : p.sendFile2 with
  | none =>
      have e1 : p.sendFile1 = some f := by simpa only [Proc.getPipe, e2] using hp
      simp only [Proc.fwrite, e1, e2, Option.map_some] at hf1 hf2
      simp only [Proc.getPipe, hf1, hf2]
  | some g =>
      have hg : g = f := by simpa only [Proc.getPipe, e2, Option.some.injEq] using hp
      simp only [Proc.fwrite, e2] at hf2
      simp only [Proc.getPipe, hf2, hg]

/-- What such a test has done to the message file that its process shares with the
runner. -/
theorem runsThrough_sent (h1 : s.proc.sendFile1.isSome) (hf : s.proc.fstat = .fork)
    (hsr : forkStatusOf x.env s.sr.fstat = .fork)
    (h : runsThrough x (runNested x) .fork tc tfun i s = .ok true c) :
    (∃ ms, SentTo s.proc ms c.proc) ∧
      ∃ data : List SendMsg, Wire.ppack x.cfg (.ctx .setup) = .ok data := by
  obtain ⟨s1, s2, hsetup, hbody, htear⟩ := runsThrough_ok h
  rw [if_neg (by decide)] at hbody
  rw [tcaseRunCheckedSetup, srunnerForkStatus, read_bind, read_bind, hsr, srunnerRunSetup,
    if_pos rfl] at hsetup
  obtain ⟨_, t, hsend, hsetup⟩ := bind_eq_ok.mp hsetup
  have hinv := childInv_sendCtx hf hsend
  have hinv1 := (Maintains.findSomeM fun f _ => inChild_runSetup h1 _ _ _ f).of_ok hinv hsetup
  have hinv2 := (inChild_callTest h1 tfun i).of_ok hinv1 hbody
  obtain ⟨ms, -, hms⟩ := ((inChild_tcaseRunCheckedTeardown h1 tc).of_ok hinv2
    (bind_of_ok _ htear)).sent
  refine ⟨⟨ms, hms⟩, ?_⟩
  rcases sendMsg_apply x (.ctx .setup) s with ⟨n, sig, -, he⟩ | ⟨-, he⟩ | ⟨data, hq, -, -⟩
  · cases he.symm.trans hsend
  · cases he.symm.trans hsend
  · exact ⟨data, hq⟩

/-- A duration is as long as a context. -/
theorem limited_duration {data : List SendMsg} (h : Wire.ppack x.cfg (.ctx .setup) = .ok data)
    (d : Int32) : Limited x.cfg.maxMsg [.duration d] := by
  have hctx : Limited x.cfg.maxMsg [.ctx .setup] :=
    (wire_ppack_ok_iff (by trivial)).mp ⟨data, h⟩
  have hlen := hctx _ List.mem_cons_self
  exact List.forall_mem_singleton.mpr hlen

/-- A test that completes normally in a process of its own, and whose duration is
not negative as an `int`. -/
theorem tcaseRunTfunFork_completes (h1 : s.proc.sendFile1.isSome) (hf : s.proc.fstat = .fork)
    (hsr : forkStatusOf x.env s.sr.fstat = .fork) (hs : s.proc.Quiet fun _ => True)
    (hkill : x.env.kill s.now = none) (hsig : tfun.signal = 0) (hexit : tfun.allowedExitValue = 0)
    (hd : 0 ≤ (testDuration x s.now).toInt)
    (h : runsThrough x (runNested x) .fork tc tfun i (forked x s) = .ok true c) :
    (∃ c', testProcess x (runNested x) tc tfun i (forked x s) = .ok () c') ∧
      ∃ tr s', tcaseRunTfunFork x (runNested x) tc tfun i s = .ok tr s' ∧ tr.rtype = .pass ∧
        tr.duration = testDuration x s.now := by
  have hstart : (forked x s).Spared := hkill
  have hspared : c.Spared :=
    ((testClosed_spares (x := x) spares_runNested).runsThrough .fork tc tfun i).of_ok hstart h
  have hnow : c.now = s.now := (silent_of_closed (fun _ hP => hP.runsThrough .fork tc tfun i) h).now
  obtain ⟨g, hg, hno, hc⟩ := runsThrough_quiet (s := forked x s) (by decide) hsr h1 hs h
  obtain ⟨⟨ms, hms⟩, data, hdata⟩ := runsThrough_sent (s := forked x s) h1 hf hsr h
  obtain ⟨f, hp, -⟩ := hs
  have hcontent : g.content = f.content ++ ms := by
    rw [hms.getPipe (f := f) hp] at hg
    cases hg
    rfl
  -- the child reports its duration and exits
  obtain ⟨s1, s2, hsetup, hbody, htear⟩ := runsThrough_ok h
  rw [if_neg (by decide)] at hbody
  have hunprotected : unprotected (callTest x (runNested x) tfun i) s1 = .ok () s2 :=
    bind_of_ok _ hbody
  have hteardown : tcaseRunCheckedTeardown x (runNested x) tc s2 = .ok () c := bind_of_ok _ htear
  obtain ⟨c', hw, hlast⟩ := stage_duration (x := x) ⟨hspared, by rw [hg]; rfl⟩ hd
    (limited_duration hdata _)
  have hchild : testProcess x (runNested x) tc tfun i (forked x s) = .ok () c' := by
    refine (bind_of_ok _ hsetup).trans ((bind_of_ok _ hunprotected).trans
      ((bind_of_ok _ hteardown).trans ?_))
    rw [read_bind, hnow]
    exact hlast
  refine ⟨⟨c', hchild⟩, ?_⟩
  have hfork : forkChild x (testProcess x (runNested x) tc tfun i) s =
      .ok (.exited 0) (joinChild s c') := by
    rw [forkChild, show testProcess x (runNested x) tc tfun i
      (s.onProc fun q => { q with killIn := x.env.kill s.now }) = _ from hchild]
  -- the runner receives it
  have hsent : SentTo s.proc (ms ++ [.duration (testDuration x s.now)]) c'.proc := by
    have hfile := (hms.congr rfl rfl : SentTo s.proc ms c.proc).fwrite
      (.duration (testDuration x s.now))
    exact ⟨hw.file1.trans hfile.1, hw.file2.trans hfile.2⟩
  have hpipe := hsent.join hp
  rw [← List.append_assoc, ← hcontent] at hpipe
  have hnn : ∀ m ∈ g.content ++ [.duration (testDuration x s.now)], m.NonNeg :=
    List.forall_mem_append.mpr ⟨fun m hm => (hno m hm).1, List.forall_mem_singleton.mpr hd⟩
  have hrmsg : received rcvmsgCreate (g.content ++ [.duration (testDuration x s.now)]) =
      { received rcvmsgCreate g.content with duration := testDuration x s.now } := by
    rw [received_append]
    rfl
  obtain ⟨_, hclean⟩ := RcvMsg.clean_rcvmsgCreate.received fun m hm => (hno m hm).2
  generalize received rcvmsgCreate g.content = r at hc hrmsg hclean
  have hne : r.lastctx ≠ .invalid ∧ r.lastctx ≠ .setup := by
    rcases hc with hc | hc <;> rw [hc] <;> decide
  have hreceive := receiveTestResult_of_nonNeg (x := x)
    (s := (joinChild s c').onProc fun p => { p with alarmReceived := x.env.alarm s.now })
    hpipe hnn (by rw [hrmsg]; exact hne.1) (waserror (.exited 0) tfun.signal)
  have hwas : waserror (.exited 0) tfun.signal = false := rfl
  rw [tcaseRunTfunFork, bind_of_ok _ hfork, read_bind, update_bind, read_bind,
    receiveResultInfoFork]
  refine ⟨_, _, bind_of_ok _ hreceive, ?_⟩
  rw [hwas, hrmsg, hsig, hexit]
  have hmsg : ¬ (r.msg ≠ none ∨ false = true) := by
    simp [hclean.msg]
  simp only [constructTestResult, if_neg hmsg, if_neg hne.2]
  exact ⟨rfl, rfl⟩

end

/-! ## the code -/

/-- The state in which the functions of a test begin: in `CK_FORK` mode that of its
process. -/
def testStart {L : Type → Type} {β ν : Type} (x : Ctx) (s : St L β ν) : St L β ν :=
  if forkStatusOf x.env s.sr.fstat = .fork then forked x s else s

/-- The fixtures and the body of a test complete normally. -/
def Completes {L : Type → Type} {β : Type} [Lists L] [Wire β] (x : Ctx) (tc : TCaseId)
    (tfun : TF NestedRun) (i : Int) (s : St L β NestedRun) : Prop :=
  ∃ c, runsThrough x (runNested x) (forkStatusOf x.env s.sr.fstat) tc tfun i (testStart x s) =
    .ok true c

theorem Completes.abs {x : Ctx} {tc : TCaseId} {tfun : TF NestedRun} {i : Int}
    {s : St CkList UInt8 NestedRun} {t : St List SendMsg NestedRun} (hst : StRel x.cfg s t)
    (h : Completes x tc tfun i s) : Completes x tc tfun i t := by
  have hsr : t.sr.fstat = s.sr.fstat := by
    cases hst with
    | mk _ _ => rfl
  have hstart : StRel x.cfg (testStart x s) (testStart x t) := by
    rw [testStart, testStart, hsr]
    split
    · exact hst.forked
    · exact hst
  obtain ⟨c, hc⟩ := h
  obtain ⟨d, hd, -⟩ := (sim_runsThrough (x := x) (sparesCase_runNested _)
      (sim_runNested _) _ tc tfun
    i).of_ok hstart hc
  exact ⟨d, by rw [hsr]; exact hd⟩

/-- The test is recorded as it should be, with the whole microseconds between the
readings of the clock; in `CK_FORK` mode its process gets through to its end. -/
def PassesInTime (x : Ctx) (tc : TCaseId) (tfun : TF NestedRun) (i : Int)
    (s : St CkList UInt8 NestedRun) : Prop :=
  (forkStatusOf x.env s.sr.fstat = .fork →
    ∃ c, testProcess x (runNested x) tc tfun i (forked x s) = .ok () c) ∧
  ∃ tr s', tcaseRunTfun x (runNested x) tc tfun i s = .ok tr s' ∧ tr.rtype = .pass ∧
    tr.duration.toInt = (x.env.clock s.now).2.usec - (x.env.clock s.now).1.usec ∧
    0 ≤ tr.duration.toInt

/-- The duration of a test that completes normally, on the abstract machine. -/
theorem tcaseRunTfun_completes {x : Ctx} {s : St List SendMsg NestedRun} {tc : TCaseId}
    {tfun : TF NestedRun} {i : Int} (h1 : s.proc.sendFile1.isSome)
    (hfork : forkStatusOf x.env s.sr.fstat = .fork → s.proc.fstat = .fork ∧
      x.env.kill s.now = none ∧ tfun.signal = 0 ∧ tfun.allowedExitValue = 0)
    (hs : s.proc.Quiet fun _ => True) (hd : 0 ≤ (testDuration x s.now).toInt)
    (h : Completes x tc tfun i s) :
    (forkStatusOf x.env s.sr.fstat = .fork →
      ∃ c, testProcess x (runNested x) tc tfun i (forked x s) = .ok () c) ∧
    ∃ tr s', tcaseRunTfun x (runNested x) tc tfun i s = .ok tr s' ∧ tr.rtype = .pass ∧
      tr.duration = testDuration x s.now := by
  obtain ⟨c, h⟩ := h
  have hmode := forkStatusOf_cases x.env s.sr.fstat
  rw [testStart] at h
  rw [tcaseRunTfun, srunnerForkStatus, read_bind]
  rcases hmode with hm | hm
  · obtain ⟨hf, hkill, hsig, hexit⟩ := hfork hm
    rw [hm, if_pos rfl] at h
    rw [hm]
    obtain ⟨hchild, hres⟩ := tcaseRunTfunFork_completes h1 hf hm hs hkill hsig hexit hd h
    exact ⟨fun _ => hchild, hres⟩
  · rw [hm, if_neg (by decide)] at h
    rw [hm]
    refine ⟨fun he => ?_, tcaseRunTfunNofork_completes h1 hm hs h⟩
    cases he

/-- **How long a test may run**: a test whose fixtures and body complete normally
passes and keeps its duration if and only if it took less than `2 ^ 31`
microseconds. -/
theorem duration_kept_iff {x : Ctx} {s : St CkList UInt8 NestedRun} {old : List SendMsg}
    (h1 : s.proc.sendFile1.isSome) (hpipe : PipeHolds x.cfg s.proc old) (hold : NoFail old)
    {tc : TCaseId} {tfun : TF NestedRun} {i : Int}
    (hfork : forkStatusOf x.env s.sr.fstat = .fork → s.proc.fstat = .fork ∧
      x.env.kill s.now = none ∧ tfun.signal = 0 ∧ tfun.allowedExitValue = 0)
    (hcomplete : Completes x tc tfun i s)
    (hclock : (x.env.clock s.now).1.Valid ∧ (x.env.clock s.now).2.Valid)
    (hle : (x.env.clock s.now).1.ns ≤ (x.env.clock s.now).2.ns) :
    PassesInTime x tc tfun i s ↔
      (x.env.clock s.now).2.usec - (x.env.clock s.now).1.usec < 2 ^ 31 := by
  have hdur : testDuration x s.now =
      Int32.ofInt ((x.env.clock s.now).2.usec - (x.env.clock s.now).1.usec) := by
    rw [testDuration, diffInUsec_eq hclock.1 hclock.2]
  have hnonneg : 0 ≤ (x.env.clock s.now).2.usec - (x.env.clock s.now).1.usec :=
    Int.sub_nonneg.mpr (usec_mono hle)
  have hfits := toInt_ofInt_eq_iff hnonneg
  rw [← hdur] at hfits
  constructor
  · -- whatever is recorded is an `int`
    rintro ⟨-, tr, s', -, -, hdur', -⟩
    rw [← hdur']
    exact tr.duration.toInt_lt
  · intro hlt
    have hd : 0 ≤ (testDuration x s.now).toInt := by
      rw [hfits.mpr hlt]
      exact hnonneg
    obtain ⟨t, f, hst, hp, hc⟩ := hpipe.exists_stRel
    have hsame : t.sr.fstat = s.sr.fstat ∧ t.now = s.now ∧ t.proc.fstat = s.proc.fstat := by
      cases hst with
      | mk _ _ => exact ⟨rfl, rfl, rfl⟩
    obtain ⟨hsr, hnow, hfstat⟩ := hsame
    have htcomplete := hcomplete.abs hst
    obtain ⟨hchild, tr, t', hrun, hpass, htr⟩ := tcaseRunTfun_completes (x := x)
      (by rwa [hst.file1_isSome]) (by rwa [hsr, hnow, hfstat])
      ⟨f, hp, by rwa [hc], trivial⟩ (by rwa [hnow]) htcomplete
    obtain ⟨s', hs', -⟩ := (sim_tcaseRunTfun (x := x) (sparesCase_runNested _)
        (sim_runNested _) tc tfun
      i).to_ok hst hrun
    rw [hsr] at hchild
    refine ⟨fun hm => ?_, tr, s', hs', hpass, ?_⟩
    · obtain ⟨c, hc⟩ := hchild hm
      obtain ⟨c', hc', -⟩ := (sim_testProcess (x := x) (sparesCase_runNested _)
          (sim_runNested _) tc tfun
        i).to_ok hst.forked hc
      exact ⟨c', hc'⟩
    · rw [htr, hnow, hfits.mpr hlt]
      exact ⟨rfl, hnonneg⟩

/-- A test that completes at once. -/
def Sample.done : TF NestedRun := Sample.test []

/-- A clock that reads `0` before each test and the given time after it. -/
def Sample.until (e : Timespec) : Ctx :=
  { Sample.ctx with env := { Sample.env with clock := fun _ => (⟨0, 0⟩, e) } }

theorem Sample.completes_done {e : Timespec}
    (h : (returned (runsThrough (Sample.until e) (runNested (Sample.until e)) .fork 0 Sample.done 0
      (forked (Sample.until e) Sample.forking))).map Prod.fst = some true) :
    Completes (Sample.until e) 0 Sample.done 0 Sample.forking := by
  obtain ⟨b, c, hc, rfl⟩ := ok_of_returned h
  exact ⟨c, hc⟩

/-- A test of two and a half seconds, in a process of its own. -/
theorem duration_kept_iff_short :
    PassesInTime (Sample.until ⟨2, 500000000⟩) 0 Sample.done 0 Sample.forking := by
  have hclock : (⟨0, 0⟩ : Timespec).Valid ∧ (⟨2, 500000000⟩ : Timespec).Valid :=
    ⟨⟨by decide, by decide⟩, by decide, by decide⟩
  exact (duration_kept_iff (x := Sample.until ⟨2, 500000000⟩) rfl (Sample.pipeHolds_running _ _)
    (fun _ hm => absurd hm List.not_mem_nil) (fun _ => ⟨rfl, rfl, rfl, rfl⟩)
    (Sample.completes_done (by decide +kernel)) hclock (by decide)).mpr (by decide)

/-- A test of 35 minutes, 47 seconds and 483648 microseconds completes normally; its
process then ends in `eprintf`, and the test is recorded as an error. -/
theorem not_passesInTime_long :
    Completes (Sample.until ⟨2147, 483648000⟩) 0 Sample.done 0 Sample.forking ∧
      (∃ c, testProcess (Sample.until ⟨2147, 483648000⟩)
        (runNested (Sample.until ⟨2147, 483648000⟩)) 0 Sample.done 0
        (forked (Sample.until ⟨2147, 483648000⟩) Sample.forking) = .error (.exited 2) c) ∧
      (∃ tr s', tcaseRunTfun (Sample.until ⟨2147, 483648000⟩)
        (runNested (Sample.until ⟨2147, 483648000⟩)) 0 Sample.done 0 Sample.forking = .ok tr s' ∧
        tr.rtype = .error) ∧
      ¬ PassesInTime (Sample.until ⟨2147, 483648000⟩) 0 Sample.done 0 Sample.forking := by
  have hchild : (stopped (testProcess (Sample.until ⟨2147, 483648000⟩)
      (runNested (Sample.until ⟨2147, 483648000⟩)) 0 Sample.done 0
      (forked (Sample.until ⟨2147, 483648000⟩) Sample.forking))).map Prod.fst =
        some (.exited 2) := by
    decide +kernel
  have hrun : (returned (tcaseRunTfun (Sample.until ⟨2147, 483648000⟩)
      (runNested (Sample.until ⟨2147, 483648000⟩)) 0 Sample.done 0 Sample.forking)).map
        (fun r => r.1.rtype) = some .error := by
    decide +kernel
  obtain ⟨e, c, hc, rfl⟩ := error_of_stopped hchild
  obtain ⟨tr, s', hs', htr⟩ := ok_of_returned hrun
  refine ⟨Sample.completes_done (by decide +kernel), ⟨c, hc⟩, ⟨tr, s', hs', htr⟩, ?_⟩
  rintro ⟨hend, -⟩
  obtain ⟨c', hc'⟩ := hend rfl
  cases hc.symm.trans hc'

/-! ## both modes -/

/-- The `int` duration is negative from `2 ^ 31` microseconds on, modulo `2 ^ 32`. -/
theorem toInt_ofInt_nonneg_iff {d : Int} : 0 ≤ (Int32.ofInt d).toInt ↔ d % 2 ^ 32 < 2 ^ 31 := by
  have hsize : Int32.size = 2 ^ 32 := rfl
  rw [Int32.toInt_ofInt, hsize, Int.bmod_def]
  split <;> omega

section

variable {ν : Type} {x : Ctx} {call : ν → RunM List SendMsg ν Unit} {s s' : St List SendMsg ν}

/-- With a duration that is negative as an `int`, a test of which no function fails does not
pass in a process of its own: the process ends in `eprintf`, or what it sends cannot be
received. -/
theorem tcaseRunTfunFork_negative {t : TestCode ν} {tc : TCaseId} {tr : TestResult}
    (h : tcaseRunTfunFork x call tc t.tfun t.iter s = .ok tr s') (ht : t.Plain x.cfg)
    (hcode : testCode s.heap tc t.tfun t.iter s.now = t) (hsig : t.tfun.signal = 0)
    (hexit : t.tfun.allowedExitValue = 0) (hf : s.proc.fstat = .fork)
    (hsr : forkStatusOf x.env s.sr.fstat = .fork) (hkill : x.env.kill s.now = none)
    (hnone : t.failure x.cfg = none) (hd : (testDuration x s.now).toInt < 0)
    {f : Pipe SendMsg} (hp : s.proc.getPipe = some f) : tr.rtype ≠ .pass := by
  let c0 := s.onProc fun q => { q with killIn := x.env.kill s.now }
  have hready : Ready c0 := ⟨hkill, by rw [show c0.proc.getPipe = some f from hp]; rfl⟩
  obtain ⟨ms, c, hw, hchild⟩ : ∃ ms c, Wrote ms c0 c ∧ testProcess x call tc t.tfun t.iter c0 =
      (do sendDurationInfo x (testDuration x s.now)
          killPoint) c :=
    testProcess_passed call (s := c0) ht hcode hready hf hsr hnone
  obtain ⟨status, s1, hfork, h⟩ := bind_eq_ok.mp h
  rw [read_bind, update_bind, read_bind, receiveResultInfoFork] at h
  obtain ⟨tr0, s2, hrcv, h⟩ := bind_eq_ok.mp h
  rcases sendMsg_refused_or_sent (x := x) (hw.ready hready) (.duration (testDuration x s.now)) with
    hsend | hsend
  · -- refused: the process ends with status 2
    have hexited : forkChild x (testProcess x call tc t.tfun t.iter) s =
        .ok (.exited 2) (joinChild s c) := by
      rw [forkChild, hchild, sendDurationInfo, bind_of_error _ hsend]
    cases hexited.symm.trans hfork
    cases h
    rw [setForkInfo_exited, hsig, hexit, if_pos rfl, if_neg (by decide)]
    split <;> decide
  · -- sent: the process passes, and its message stops the runner
    have hexited : forkChild x (testProcess x call tc t.tfun t.iter) s =
        .ok (.exited 0)
          (joinChild s (c.onProc (Proc.fwrite [.duration (testDuration x s.now)]))) := by
      rw [forkChild, hchild, sendDurationInfo, bind_of_ok _ hsend, killPoint, read_bind,
        ((hw.trans (wrote_fwrite _ c)).ready hready).1]
      rfl
    cases hexited.symm.trans hfork
    have hw' := hw.trans (wrote_fwrite [.duration (testDuration x s.now)] c)
    have hsent : SentTo c0.proc (ms ++ [.duration (testDuration x s.now)])
        (c.onProc (Proc.fwrite [.duration (testDuration x s.now)])).proc := ⟨hw'.file1, hw'.file2⟩
    have hpipe := (hsent.congr rfl rfl).join hp
    have hneg : ¬ ∀ m ∈ f.content ++ (ms ++ [.duration (testDuration x s.now)]), m.NonNeg :=
      fun hall => absurd (hall (.duration (testDuration x s.now)) (by simp)) (Int.not_le.mpr hd)
    rw [receiveTestResult_messages x hpipe, if_neg fun hall => hneg hall.1] at hrcv
    cases hrcv

end

/-- Such a test, of the code. -/
theorem not_pass_fork {x : Ctx} {s : St CkList UInt8 NestedRun} {tc : TCaseId} {tfun : TF NestedRun}
    {i : Int} {old : List SendMsg} (ht : (testCode s.heap tc tfun i s.now).Plain x.cfg)
    (hsig : tfun.signal = 0) (hexit : tfun.allowedExitValue = 0) (hf : s.proc.fstat = .fork)
    (hsr : forkStatusOf x.env s.sr.fstat = .fork) (hkill : x.env.kill s.now = none)
    (hnone : (testCode s.heap tc tfun i s.now).failure x.cfg = none)
    (hd : (testDuration x s.now).toInt < 0) (hpipe : PipeHolds x.cfg s.proc old)
    {tr : TestResult} {s' : St CkList UInt8 NestedRun}
    (h : tcaseRunTfunFork x (runNested x) tc tfun i s = .ok tr s') : tr.rtype ≠ .pass := by
  obtain ⟨t, f, hst, hp, -⟩ := hpipe.exists_stRel
  obtain ⟨t', ht', -⟩ := (sim_tcaseRunTfunFork (x := x) (sparesCase_runNested _)
      (sim_runNested _) tc
    tfun i).of_ok hst h
  cases hst with
  | mk _ _ =>
      exact tcaseRunTfunFork_negative (t := testCode s.heap tc tfun i s.now)
        ht' ht rfl hsig hexit hf hsr hkill hnone hd hp

/-- **When both modes agree**, on the verdict and on what is reported with it.  The test is an
ordinary one of plain functions that starts with an empty message file, and all messages are
within the limit: the modes agree if and only if some function fails, or the duration of the
test is not negative as an `int`. -/
theorem tcaseRunTfun_modes_agree_iff {x : Ctx} {s : St CkList UInt8 NestedRun} {tc : TCaseId}
    {tfun : TF NestedRun} {i : Int} (ht : (testCode s.heap tc tfun i s.now).Plain x.cfg)
    (hsig : tfun.signal = 0) (hexit : tfun.allowedExitValue = 0) (hkill : s.proc.killIn = none)
    (hkill' : x.env.kill s.now = none)
    (hlim : Limited x.cfg.maxMsg [.duration (testDuration x s.now)])
    (hpipe : PipeHolds x.cfg s.proc []) (env : Env) :
    ModesAgree x env tc tfun i s ↔
      (testCode s.heap tc tfun i s.now).failure x.cfg ≠ none ∨
        diffInUsec (x.env.clock s.now).1 (x.env.clock s.now).2 % 2 ^ 32 < 2 ^ 31 := by
  rw [← toInt_ofInt_nonneg_iff]
  constructor
  · rintro ⟨tr₁, s₁, tr₂, s₂, hrun₁, hrun₂, hrtype, -⟩
    by_contra hcon
    rw [not_or, not_not, Int.not_le] at hcon
    obtain ⟨hnone, hneg⟩ := hcon
    have hnil : NoFail [] := fun _ hm => absurd hm List.not_mem_nil
    -- without forking, the test passes
    obtain ⟨tr, s', hrun, -, hrep⟩ := reports_nofork (x := { x with env := env })
      (s := s.withFork .nofork) ht (fun h => nomatch h) rfl hkill (hpipe.withFork _) hnil
    cases hrun₂.symm.trans hrun
    have hpass : tr₂.rtype = .pass := by
      rw [show (testCode (s.withFork .nofork).heap tc tfun i (s.withFork .nofork).now).failure
        x.cfg = none from hnone] at hrep
      exact hrep.1
    -- with forking, it does not
    have hne : tr₁.rtype ≠ .pass := not_pass_fork (s := s.withFork .fork) ht hsig hexit rfl rfl
      hkill' hnone hneg (hpipe.withFork _) hrun₁
    exact hne (hrtype.trans hpass)
  · intro hd
    refine modesAgree_of_sendable ht hsig hexit hkill hkill' (fun hnone => ⟨?_, hlim⟩) hpipe env
    exact hd.resolve_left fun hsome => hsome hnone

/-- A test that fails, with a teardown that fails too. -/
theorem tcaseRunTfun_modes_agree_iff_failingTwice :
    ModesAgree Sample.ctx Sample.env 0 (Sample.test [.markPoint Sample.loc, Sample.fail]) 0
      (Sample.running [Sample.failingTwice] .fork) :=
  (tcaseRunTfun_modes_agree_iff (x := Sample.ctx)
    (s := Sample.running [Sample.failingTwice] .fork) Sample.plain_failingTwice rfl rfl rfl rfl
    (by decide) (Sample.pipeHolds_running _ _) Sample.env).mpr
      (.inl (Option.isSome_iff_ne_none.mp rfl))

theorem Sample.plain_done :
    (testCode Sample.forking.heap 0 Sample.done 0 Sample.forking.now).Plain Sample.cfg where
  setups f hf := absurd hf List.not_mem_nil
  body := ⟨.nil, fun _ hm => absurd hm List.not_mem_nil⟩
  teardowns f hf := absurd hf List.not_mem_nil
  header := by decide
  ctx c := List.forall_mem_singleton.mpr (show 8 ≤ 64 ∧ 8 ≤ intMax by decide)

/-- A test of 35 minutes, 47 seconds and 483648 microseconds that does nothing else: with
forking it is recorded as an error, without as a pass. -/
theorem modes_disagree_long :
    (testCode Sample.forking.heap 0 Sample.done 0 Sample.forking.now).Plain Sample.cfg ∧
      ¬ ModesAgree (Sample.until ⟨2147, 483648000⟩) Sample.env 0 Sample.done 0 Sample.forking := by
  have hfork : (returned (tcaseRunTfunFork (Sample.until ⟨2147, 483648000⟩)
      (runNested (Sample.until ⟨2147, 483648000⟩)) 0 Sample.done 0
      (Sample.forking.withFork .fork))).map (fun r => r.1.rtype) = some .error := by
    decide +kernel
  have hnofork : (returned (tcaseRunTfunNofork
      { Sample.until ⟨2147, 483648000⟩ with env := Sample.env }
      (runNested { Sample.until ⟨2147, 483648000⟩ with env := Sample.env }) 0 Sample.done 0
      (Sample.forking.withFork .nofork))).map (fun r => r.1.rtype) = some .pass := by
    decide +kernel
  refine ⟨Sample.plain_done, ?_⟩
  rintro ⟨tr₁, s₁, tr₂, s₂, hrun₁, hrun₂, hrtype, -⟩
  rw [hrun₁] at hfork
  rw [hrun₂] at hnofork
  have h₁ : tr₁.rtype = .error := Option.some.inj hfork
  have h₂ : tr₂.rtype = .pass := Option.some.inj hnofork
  rw [h₁, h₂] at hrtype
  cases hrtype

end LibCheck
