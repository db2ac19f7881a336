import LibCheck.Death
import LibCheck.Reentry

/-!
# LibCheck.Enclosing

A nested run and the test around it.

A test without forking whose function fails an assertion goes on with its checked
teardowns, and these may make runs and fail assertions too.

* `comesBack` — whether a function comes back to the runner, read off its steps.
* `runFun_comesBack`, `findSomeM_runTeardown_comesBack` — it is what the code does.
* `nested_assertion_handled_iff` — when the failing assertion of an unchecked setup or of a
  test is handled, recorded, and the enclosing run goes on.
-/

namespace LibCheck

open Prog

/-! ## functions that come back -/

/-- A user function that is called in the process of the runner comes back to it, by its end or
by the jump of a failing assertion, provided that the runs it makes come back.  The fork status
is `CK_FORK` if `forking`. -/
def comesBack (cfg : Config) {ν : Type} : (forking : Bool) → List (Act ν) → Bool
  | _, [] => true
  | forking, .markPoint loc :: acts =>
      decide (Limited cfg.maxMsg [loc.msg]) && comesBack cfg forking acts
  | forking, .assertFailed loc expr msg :: _ =>
      !forking && decide (Assertion.Fits cfg ⟨loc, expr, msg⟩)
  | _, .exit _ :: _ => false
  | _, .raise _ :: _ => false
  -- a run ends with `set_fork_status(CK_FORK)`
  | _, .call _ :: acts => comesBack cfg true acts

/-- Fixtures that are called one after the other, up to the first that fails, come back. -/
def fixturesComeBack (cfg : Config) (now : When) : (forking : Bool) →
    List (Fixture NestedRun) → Bool
  | _, [] => true
  | forking, f :: fs =>
      comesBack cfg forking (f.sfun.acts now) && (fails (f.sfun.acts now) ||
        fixturesComeBack cfg now (forking || !(nestedRuns (f.sfun.acts now)).isEmpty) fs)

/-- A run that comes back, in whatever state the outermost run makes it. -/
def NestedRun.Complete (x : Ctx) (c : NestedRun) : Prop :=
  ∀ s : St CkList UInt8 NestedRun, s.proc.sendFile1.isSome → s.proc.sendFile2 = none →
    s.proc.killIn = none → ∃ s', runNested x c s = .ok () s'

/-- The process of the outermost run, which nobody kills, in the image of a state of the code. -/
structure Steady (x : Ctx) (s : St List SendMsg NestedRun) : Prop where
  code : ∃ u : St CkList UInt8 NestedRun, StRel x.cfg u s
  file1 : s.proc.sendFile1.isSome
  file2 : s.proc.sendFile2 = none
  killIn : s.proc.killIn = none

namespace Steady

variable {x : Ctx} {s s' : St List SendMsg NestedRun} (h : Steady x s)
include h

theorem ready : Ready s := ⟨h.killIn, Proc.isSome_getPipe h.file1⟩

theorem send {m : SendMsg} (hsend : sendMsg x m s = .ok () s') : Steady x s' := by
  obtain ⟨u, hu⟩ := h.code
  obtain ⟨u', -, hu'⟩ := (sim_sendMsg x m).to_ok hu hsend
  refine ⟨⟨u', hu'⟩, sendMsg_file1 h.file1 hsend, ?_, sendMsg_spared h.killIn hsend⟩
  rcases sendMsg_apply x m s with ⟨n, sig, -, he⟩ | ⟨-, he⟩ | ⟨data, -, -, he⟩
  · cases he.symm.trans hsend
  · cases he.symm.trans hsend
  · cases he.symm.trans hsend
    show (s.proc.granted.fwrite data).sendFile2 = none
    rw [Proc.granted_eq]
    simp only [Proc.fwrite, h.file2]

theorem nested {c : NestedRun} (hrun : runNested x c s = .ok () s') : Steady x s' := by
  obtain ⟨u, hu⟩ := h.code
  obtain ⟨u', -, hu'⟩ := (sim_runNested x c).to_ok hu hrun
  obtain ⟨f, hf⟩ := Option.isSome_iff_exists.mp h.file1
  obtain ⟨-, hf1, hf2, -⟩ := runNested_ok hf hrun
  have hspared : s'.Spared := Maintains.of_ok (I := St.Spared) (spares_runNested c) h.killIn hrun
  exact ⟨⟨u', hu'⟩, by rw [hf1]; rfl, hf2, hspared⟩

/-- A complete run comes back. -/
theorem complete {c : NestedRun} (hc : c.Complete x) : ∃ s', runNested x c s = .ok () s' := by
  obtain ⟨u, hu⟩ := h.code
  have hfiles : u.proc.sendFile1.isSome ∧ u.proc.sendFile2 = none ∧ u.proc.killIn = none := by
    obtain ⟨-, h1, h2, hk⟩ := h
    cases hu with
    | @mk f1 f2 hfile1 hfile2 =>
        refine ⟨by rw [isSome_eq hfile1]; exact h1, ?_, hk⟩
        have hnone := isSome_eq hfile2
        rw [show f2 = none from h2] at hnone
        exact Option.not_isSome_iff_eq_none.mp (by rw [hnone]; exact Bool.false_ne_true)
  obtain ⟨u', hrun⟩ := hc u hfiles.1 hfiles.2.1 hfiles.2.2
  obtain ⟨s', hrun', -⟩ := (sim_runNested x c).of_ok hu hrun
  exact ⟨s', hrun'⟩

theorem observe (o : Obs) : Steady x (s.onProc (Proc.observe x.lvl o)) := by
  obtain ⟨u, hu⟩ := h.code
  obtain ⟨u', -, hu'⟩ := (sim_observe x.lvl o).to_ok hu rfl
  exact ⟨⟨u', hu'⟩, h.file1, h.file2, h.killIn⟩

theorem setjmp : Steady x (s.onProc fun p => { p with errorJmpBuffer := some x.lvl }) := by
  obtain ⟨u, hu⟩ := h.code
  have hjmp : Sim (StRel x.cfg) (update (St.onProc fun p =>
      { p with errorJmpBuffer := some x.lvl }) :
      RunM CkList UInt8 NestedRun Unit) (update (St.onProc fun p =>
        { p with errorJmpBuffer := some x.lvl })) :=
    sim_update (fun _ _ _ => rfl) (fun _ => rfl) fun _ => rfl
  obtain ⟨u', -, hu'⟩ := hjmp.to_ok hu rfl
  exact ⟨⟨u', hu'⟩, h.file1, h.file2, h.killIn⟩

theorem entered (o : Obs) : Steady x (entered x o s) := h.setjmp.observe o

theorem receive {tcname tname : CStr} {iter : Int} {duration : Int32} {tr : TestResult}
    (hrcv : receiveResultInfoNofork x tcname tname iter duration s = .ok tr s') : Steady x s' := by
  obtain ⟨u, hu⟩ := h.code
  obtain ⟨u', -, hu'⟩ := (sim_receiveResultInfoNofork x tcname tname iter duration).to_ok hu hrcv
  obtain ⟨tr', s1, hres, hrcv⟩ := bind_eq_ok.mp hrcv
  cases hrcv
  obtain ⟨f, hf⟩ := Option.isSome_iff_exists.mp h.file1
  have hrenew : s.proc.renew.sendFile1.isSome ∧ s.proc.renew.sendFile2 = none ∧
      s.proc.renew.killIn = none := by
    simp [Proc.renew, Proc.openFile1, hf, h.file2, h.killIn]
  rw [receiveTestResult_apply] at hres
  split at hres <;> cases hres
  exact ⟨⟨u', hu'⟩, hrenew.1, hrenew.2.1, hrenew.2.2⟩

end Steady

section

variable {x : Ctx} {s s' : St List SendMsg NestedRun}

/-- A function comes back as its steps say. -/
theorem runFun_comesBack {acts : List (Act NestedRun)} (h : Steady x s)
    (hj : s.proc.fstat ≠ .fork → s.proc.errorJmpBuffer = some x.lvl)
    (hc : ∀ c ∈ nestedRuns acts, c.Complete x) :
    (∃ b s', runFun x (runNested x) acts s = .ok b s') ↔
      comesBack x.cfg (decide (s.proc.fstat = .fork)) acts = true := by
  induction acts generalizing s with
  | nil => exact iff_of_true ⟨false, s, rfl⟩ rfl
  | cons act acts ih =>
      cases act with
      | markPoint loc =>
          rw [comesBack, Bool.and_eq_true, decide_eq_true_iff]
          constructor
          · rintro ⟨b, s', hrun⟩
            obtain ⟨_, s1, hsend, hrun⟩ := bind_eq_ok.mp hrun
            obtain ⟨hf1, hj1, -⟩ := sendMsg_control hsend
            have hrest := (ih (h.send hsend) (by rwa [hf1, hj1]) hc).mp ⟨b, s', hrun⟩
            rw [hf1] at hrest
            exact ⟨limited_of_sendMsg loc.nonNeg_msg hsend, hrest⟩
          · rintro ⟨hlim, hrest⟩
            have hsend := sendMsg_of_ready (x := x) h.ready loc.nonNeg_msg hlim
            obtain ⟨hf1, hj1, -⟩ := sendMsg_control hsend
            rw [← hf1] at hrest
            obtain ⟨b, s', hrun⟩ := (ih (h.send hsend) (by rwa [hf1, hj1]) hc).mpr hrest
            exact ⟨b, s', (bind_of_ok _ hsend).trans hrun⟩
      | assertFailed loc expr msg =>
          rw [comesBack, Bool.and_eq_true, Bool.not_eq_true', decide_eq_false_iff_not,
            decide_eq_true_iff]
          constructor
          · rintro ⟨b, s', hrun⟩
            obtain ⟨_, s1, hassert, -⟩ := bind_eq_ok.mp hrun
            obtain ⟨⟨s2, hloc, hfail⟩, hfork, -⟩ := ckAssertFailed_ok hassert
            rw [(sendMsg_control hfail).1, (sendMsg_control hloc).1] at hfork
            exact ⟨hfork, fits_of_ckAssertFailed hassert⟩
          · rintro ⟨hfork, hfits⟩
            exact ⟨true, ckAssertFailed_jumps (a := ⟨loc, expr, msg⟩) h.ready hfork
              (hj hfork) hfits⟩
      | exit status =>
          refine iff_of_false ?_ Bool.false_ne_true
          rintro ⟨b, s', hrun⟩
          obtain ⟨_, s1, -, hrun⟩ := bind_eq_ok.mp hrun
          cases hrun
      | raise sig =>
          refine iff_of_false ?_ Bool.false_ne_true
          rintro ⟨b, s', hrun⟩
          cases hrun
      | call c =>
          obtain ⟨hcomplete, hrest⟩ := List.forall_mem_cons.mp hc
          obtain ⟨s1, hcall⟩ := h.complete hcomplete
          obtain ⟨f, hf⟩ := Option.isSome_iff_exists.mp h.file1
          obtain ⟨-, -, -, hfork⟩ := runNested_ok hf hcall
          have hiff := ih (h.nested hcall) (fun hne => absurd hfork hne) hrest
          rw [hfork, decide_eq_true rfl] at hiff
          rw [comesBack, ← hiff]
          constructor
          · rintro ⟨b, s', hrun⟩
            obtain ⟨_, s1', hcall', hrun⟩ := bind_eq_ok.mp hrun
            cases hcall.symm.trans hcall'
            exact ⟨b, s', hrun⟩
          · rintro ⟨b, s', hrun⟩
            exact ⟨b, s', (bind_of_ok _ hcall).trans hrun⟩

theorem runFun_steady {acts : List (Act NestedRun)} {b : Bool} (h : Steady x s)
    (hrun : runFun x (runNested x) acts s = .ok b s') : Steady x s' := by
  induction acts generalizing s with
  | nil =>
      cases hrun
      exact h
  | cons act acts ih =>
      cases act with
      | markPoint loc =>
          obtain ⟨_, s1, hsend, hrun⟩ := bind_eq_ok.mp hrun
          exact ih (h.send hsend) hrun
      | assertFailed loc expr msg =>
          obtain ⟨_, s1, hassert, hrun⟩ := bind_eq_ok.mp hrun
          obtain ⟨⟨s2, hloc, hfail⟩, -⟩ := ckAssertFailed_ok hassert
          cases hrun
          exact ((h.observe _).send hloc).send hfail
      | exit status =>
          obtain ⟨_, s1, -, hrun⟩ := bind_eq_ok.mp hrun
          cases hrun
      | raise sig => cases hrun
      | call c =>
          obtain ⟨_, s1, hcall, hrun⟩ := bind_eq_ok.mp hrun
          exact ih (h.nested hcall) hrun

/-- What a setup leaves. -/
theorem runSetup_steady {fl : FixtureList} {tname sname : CStr} {f : Fixture NestedRun}
    {r : Option TestResult} (h : Steady x s)
    (hrun : runSetup x (runNested x) fl .nofork tname sname f s = .ok r s') : Steady x s' := by
  rw [runSetup, if_pos rfl] at hrun
  obtain ⟨_, s1, hsend, hrun⟩ := bind_eq_ok.mp hrun
  obtain ⟨b, s2, hcall, hrun⟩ := bind_eq_ok.mp hrun
  obtain ⟨tr, s3, hrcv, hrun⟩ := bind_eq_ok.mp hrun
  rw [protect_callFixture_apply] at hcall
  have h3 : Steady x s3 := (runFun_steady ((h.send hsend).entered _) hcall).receive hrcv
  split at hrun <;> cases hrun <;> exact h3

/-- What setups leave that all pass. -/
theorem findSomeM_runSetup_left {fl : FixtureList} {tname sname : CStr}
    {fs : List (Fixture NestedRun)} (h : Steady x s) (hs : s.proc.Readable)
    (hrun : fs.findSomeM? (runSetup x (runNested x) fl .nofork tname sname) s = .ok none s') :
    Steady x s' ∧ s'.proc.Readable ∧ Silent x s s' ∧
      (s'.proc.fstat ≠ .fork ↔
        s.proc.fstat ≠ .fork ∧ ∀ f ∈ fs, nestedRuns (f.sfun.acts s.now) = []) := by
  induction fs generalizing s with
  | nil =>
      cases hrun
      exact ⟨h, hs, ⟨rfl, fun _ _ => rfl, id⟩,
        (and_iff_left fun _ hf => absurd hf List.not_mem_nil).symm⟩
  | cons f fs ih =>
      obtain ⟨r, s1, hone, hrun⟩ := bind_eq_ok.mp hrun
      cases r with
      | some tr => cases hrun
      | none =>
          have hsil := silent_runSetup hone
          obtain ⟨hf1, hread1⟩ := runSetup_fstat h.file1 hone
          obtain ⟨h', hread', hsil', hf'⟩ := ih (runSetup_steady h hone) hread1 hrun
          refine ⟨h', hread', hsil.trans hsil', hf'.trans ?_⟩
          rw [hsil.now, hf1, List.forall_mem_cons]
          by_cases hn : nestedRuns (f.sfun.acts s.now) = []
          · rw [if_pos hn, and_iff_right hn]
          · rw [if_neg hn]
            exact iff_of_false (fun hc => hc.1 rfl) fun hc => hn hc.2.1

/-- What a teardown leaves that comes back. -/
theorem runTeardown_left {fl : FixtureList} {f : Fixture NestedRun} {r : Option Unit}
    (h : Steady x s) (hs : s.proc.Readable)
    (hrun : runTeardown x (runNested x) fl .nofork f s = .ok r s') :
    Steady x s' ∧ s'.proc.Talking ∧ s'.now = s.now ∧ r.isSome = fails (f.sfun.acts s.now) ∧
      s'.proc.fstat = if nestedRuns (f.sfun.acts s.now) = [] then s.proc.fstat else .fork := by
  have hsilent : Silent x s s' := silent_of_closed (fun _ hP => hP.runTeardown fl .nofork f) hrun
  have hr := (runTeardown_pending h.file1 hrun).1
  obtain ⟨_, s1, hsend, hrun⟩ := bind_eq_ok.mp hrun
  obtain ⟨hf1, -, hnow1⟩ := sendMsg_control hsend
  have h1 := h.send hsend
  have htalk : s1.proc.Talking :=
    Proc.Readable.talking hs (by decide : CkResultCtx.teardown ≠ .invalid) hsend
  rw [if_pos rfl] at hrun
  obtain ⟨b, s2, hcall, hrun⟩ := bind_eq_ok.mp hrun
  rw [protect_callFixture_apply] at hcall
  obtain rfl : s' = s2 := by
    cases b <;> cases hrun <;> rfl
  have hentered := h1.entered (.fixture fl f.sfun.addr)
  have hfstat := runFun_fstat hentered.file1 hcall
  rw [show (LibCheck.entered x (.fixture fl f.sfun.addr) s1).proc.fstat = s1.proc.fstat from rfl,
    hf1, hnow1] at hfstat
  exact ⟨runFun_steady hentered hcall, runFun_talking hentered.file1 htalk hcall, hsilent.now, hr,
    hfstat⟩

/-- A teardown comes back if its function does. -/
theorem runTeardown_comesBack {fl : FixtureList} {f : Fixture NestedRun} (h : Steady x s)
    (hctx : Limited x.cfg.maxMsg [.ctx .teardown])
    (hc : ∀ c ∈ nestedRuns (f.sfun.acts s.now), c.Complete x) :
    (∃ r s', runTeardown x (runNested x) fl .nofork f s = .ok r s') ↔
      comesBack x.cfg (decide (s.proc.fstat = .fork)) (f.sfun.acts s.now) = true := by
  have hsend := sendMsg_of_ready (x := x) h.ready (nonNeg_ctx .teardown) hctx
  obtain ⟨hf1, -, hnow1⟩ := sendMsg_control hsend
  rw [← hnow1] at hc
  have hiff := runFun_comesBack ((h.send hsend).entered (.fixture fl f.sfun.addr)) (fun _ => rfl) hc
  rw [show (LibCheck.entered x (.fixture fl f.sfun.addr)
    (s.onProc (Proc.fwrite [.ctx .teardown]))).proc.fstat = s.proc.fstat from hf1, hnow1] at hiff
  rw [← hiff]
  constructor
  · rintro ⟨r, s', hrun⟩
    obtain ⟨_, s1, hsend', hrun⟩ := bind_eq_ok.mp hrun
    cases hsend.symm.trans hsend'
    rw [if_pos rfl] at hrun
    obtain ⟨b, s2, hcall, -⟩ := bind_eq_ok.mp hrun
    exact ⟨b, s2, hcall⟩
  · rintro ⟨b, s', hcall⟩
    have hprotect : protect x (callFixture x (runNested x) fl f)
        (s.onProc (Proc.fwrite [.ctx .teardown])) = .ok b s' := hcall
    refine ⟨if b then some () else none, s', (bind_of_ok _ hsend).trans ?_⟩
    rw [if_pos rfl, bind_of_ok _ hprotect]
    cases b <;> rfl

theorem Proc.Talking.readable {q : Proc SendMsg} (h : q.Talking) : q.Readable := by
  obtain ⟨f, hf, hnn, -⟩ := h
  exact ⟨f, hf, hnn⟩

/-- Teardowns, up to the first that fails, come back if their functions do. -/
theorem findSomeM_runTeardown_comesBack {fl : FixtureList} {fs : List (Fixture NestedRun)}
    (h : Steady x s) (hs : s.proc.Readable) (hctx : Limited x.cfg.maxMsg [.ctx .teardown])
    (hc : ∀ c ∈ runsUntilFailure s.now fs, c.Complete x) :
    (∃ r s', fs.findSomeM? (runTeardown x (runNested x) fl .nofork) s = .ok r s') ↔
      fixturesComeBack x.cfg s.now (decide (s.proc.fstat = .fork)) fs = true := by
  induction fs generalizing s with
  | nil => exact iff_of_true ⟨none, s, rfl⟩ rfl
  | cons f fs ih =>
      rw [runsUntilFailure] at hc
      obtain ⟨hcf, hcs⟩ := List.forall_mem_append.mp hc
      have hone : (∃ r s', runTeardown x (runNested x) fl .nofork f s = .ok r s') ↔ _ :=
        runTeardown_comesBack h hctx hcf
      rw [fixturesComeBack, Bool.and_eq_true, ← hone]
      -- what is left of the list after a teardown that comes back
      have hrest : ∀ {r s1}, runTeardown x (runNested x) fl .nofork f s = .ok r s1 →
          ((∃ r s', (f :: fs).findSomeM? (runTeardown x (runNested x) fl .nofork) s = .ok r s') ↔
            (fails (f.sfun.acts s.now) || fixturesComeBack x.cfg s.now
              (decide (s.proc.fstat = .fork) ||
              !(nestedRuns (f.sfun.acts s.now)).isEmpty) fs) = true) := by
        intro r s1 hrun
        obtain ⟨h1, htalk, hnow1, hr, hf1⟩ := runTeardown_left h hs hrun
        rw [List.findSomeM?]
        cases r with
        | some u =>
            rw [← hr]
            exact iff_of_true ⟨some u, s1, bind_of_ok _ hrun⟩ rfl
        | none =>
            have hfork : (decide (s.proc.fstat = .fork) || !(nestedRuns
                (f.sfun.acts s.now)).isEmpty) =
                decide (s1.proc.fstat = .fork) := by
              rw [hf1]
              cases nestedRuns (f.sfun.acts s.now) with
              | nil => exact Bool.or_false _
              | cons c cs => exact Bool.or_true _
            rw [← hr, Option.isSome_none, if_neg Bool.false_ne_true, ← hnow1] at hcs
            rw [← hr, Option.isSome_none, Bool.false_or, hfork, ← hnow1, ← ih h1 htalk.readable hcs]
            constructor
            · rintro ⟨r, s', hall⟩
              rw [bind_of_ok _ hrun] at hall
              exact ⟨r, s', hall⟩
            · rintro ⟨r, s', hall⟩
              exact ⟨r, s', (bind_of_ok _ hrun).trans hall⟩
      constructor
      · rintro ⟨r, s', hall⟩
        obtain ⟨r1, s1, hrun, -⟩ := bind_eq_ok.mp hall
        exact ⟨⟨r1, s1, hrun⟩, (hrest hrun).mp ⟨r, s', hall⟩⟩
      · rintro ⟨⟨r1, s1, hrun⟩, hback⟩
        exact (hrest hrun).mpr hback

/-- What teardowns leave that come back. -/
theorem findSomeM_runTeardown_left {fl : FixtureList} {fs : List (Fixture NestedRun)}
    {r : Option Unit} (h : Steady x s) (hs : s.proc.Talking)
    (hrun : fs.findSomeM? (runTeardown x (runNested x) fl .nofork) s = .ok r s') :
    s'.proc.Talking := by
  induction fs generalizing s with
  | nil =>
      cases hrun
      exact hs
  | cons f fs ih =>
      obtain ⟨r1, s1, hone, hrun⟩ := bind_eq_ok.mp hrun
      obtain ⟨h1, htalk, -⟩ := runTeardown_left h hs.readable hone
      cases r1 with
      | some u =>
          cases hrun
          exact htalk
      | none => exact ih h1 htalk hrun

/-- What a test leaves that comes back. -/
theorem protect_callTest_left {tfun : TF NestedRun} {i : Int} {b : Bool} (h : Steady x s)
    (hs : s.proc.Readable) (hrun : protect x (callTest x (runNested x) tfun i) s = .ok b s') :
    Steady x s' ∧ s'.proc.Talking ∧ s'.heap = s.heap ∧ s'.now = s.now ∧
      b = fails (tfun.ttest.fn i s.now) ∧
      s'.proc.fstat = (if nestedRuns (tfun.ttest.fn i s.now) = [] then s.proc.fstat else .fork) ∧
      Limited x.cfg.maxMsg [.ctx .teardown] := by
  have hsil : Silent x s s' := silent_of_closed (fun _ hP => hP.protect (hP.callTest tfun i)) hrun
  rw [protect, update_bind] at hrun
  obtain ⟨_, s1, hctx, hrun⟩ := bind_eq_ok.mp hrun
  obtain ⟨_, s2, hloc, hrun⟩ := bind_eq_ok.mp hrun
  rw [update_bind, read_bind] at hrun
  have h1 := h.setjmp.send hctx
  have h2 := (h1.send hloc).observe (.body tfun.ttest.name i)
  have hs0 : (s.onProc fun p => { p with errorJmpBuffer := some x.lvl }).proc.Readable := hs
  have htalk1 : s1.proc.Talking :=
    hs0.talking (by decide : CkResultCtx.test ≠ .invalid) hctx
  have htalk2 : s2.proc.Talking :=
    htalk1.send tfun.ttest.loc.nonNeg_msg (by rintro ⟨⟩) hloc
  obtain ⟨hf1, -, hnow1⟩ := sendMsg_control hctx
  obtain ⟨hf2, -, hnow2⟩ := sendMsg_control hloc
  have hnow : s2.now = s.now := hnow2.trans hnow1
  have hfstat := runFun_fstat h2.file1 hrun
  have hb := (runFun_pending h2.file1 hrun).1
  rw [show (s2.onProc (Proc.observe x.lvl (.body tfun.ttest.name i))).now = s2.now from rfl, hnow]
    at hfstat hb
  refine ⟨runFun_steady h2 hrun, runFun_talking h2.file1 htalk2 hrun, hsil.heap, hsil.now, hb,
    hfstat.trans ?_, ?_⟩
  · rw [show (s2.onProc (Proc.observe x.lvl (.body tfun.ttest.name i))).proc.fstat = s2.proc.fstat
      from rfl, hf2, hf1]
    rfl
  · -- contexts are of one length
    have hlim : Limited x.cfg.maxMsg [.ctx .test] := limited_of_sendMsg (nonNeg_ctx .test) hctx
    intro m hm
    rw [List.mem_singleton.mp hm]
    exact hlim (.ctx .test) (List.mem_singleton.mpr rfl)

/-! ## tests -/

/-- When a failing assertion of a test without forking, whose checked setups pass, becomes the
failure of a test. -/
def AssertionHandled {L : Type → Type} [Lists L] (cfg : Config) (heap : Heap L NestedRun)
    (now : When) (forking : Bool) (tc : TCaseId) (tfun : TF NestedRun) (i : Int) : Prop :=
  -- the assertion is in the mode of the test: nobody has made a run
  (forking = false ∧ (∀ f ∈ Lists.elems (heap.lists (.fixtures .chSflst tc)),
        nestedRuns (f.sfun.acts now) = []) ∧ nestedRuns (tfun.ttest.fn i now) = []) ∧
    -- its messages are accepted
    AssertionFits cfg (tfun.ttest.fn i now) ∧
    -- and the checked teardowns, which are still called, come back
    fixturesComeBack cfg now false (Lists.elems (heap.lists (.fixtures .chTflst tc))) = true

/-- A test without forking that fails an assertion. -/
theorem tcaseRunTfunNofork_handled_iff {tc : TCaseId} {tfun : TF NestedRun} {i : Int}
    {s1 : St List SendMsg NestedRun} (h : Steady x s) (hs : s.proc.Readable)
    (hmode : forkStatusOf x.env s.sr.fstat = .nofork)
    (hset : tcaseRunCheckedSetup x (runNested x) tc s = .ok none s1)
    (hch : Changes (St.asserted x.lvl) (protect x (callTest x (runNested x) tfun i)) s1)
    (hc : ∀ c ∈ runsUntilFailure s.now (s.heap.lists (.fixtures .chTflst tc)), c.Complete x) :
    ((∃ s2, protect x (callTest x (runNested x) tfun i) s1 = .ok true s2) ∧
        ∃ tr s', tcaseRunTfunNofork x (runNested x) tc tfun i s = .ok tr s' ∧ tr.rtype = .failure) ↔
      AssertionHandled x.cfg s.heap s.now (decide (s.proc.fstat = .fork)) tc tfun i := by
  have hset' := hset
  rw [tcaseRunCheckedSetup, srunnerForkStatus, read_bind, read_bind, hmode, srunnerRunSetup,
    if_neg (by decide)] at hset'
  obtain ⟨h1, hread1, hsil, hf1⟩ := findSomeM_runSetup_left h hs hset'
  have hbody := protect_callTest_handled_iff h1.file1 h1.killIn hch
  rw [hf1, hsil.now] at hbody
  -- what follows the jump of the test
  have hrest : ∀ {s2}, protect x (callTest x (runNested x) tfun i) s1 = .ok true s2 →
      ((∃ tr s', tcaseRunTfunNofork x (runNested x) tc tfun i s = .ok tr s') ↔
        fixturesComeBack x.cfg s.now false (s.heap.lists (.fixtures .chTflst tc)) = true) := by
    intro s2 hcall
    obtain ⟨h2, htalk2, hheap2, hnow2, -, hf2, hctx⟩ := protect_callTest_left h1 hread1 hcall
    obtain ⟨hfork, hn, -⟩ := hbody.mp ⟨s2, hcall⟩
    rw [hsil.now, if_pos hn] at hf2
    have hfork2 : decide (s2.proc.fstat = .fork) = false := by
      rw [hf2]
      exact decide_eq_false (hf1.mpr hfork)
    have hnow : s2.now = s.now := hnow2.trans hsil.now
    have hheap : s2.heap = s.heap := hheap2.trans hsil.heap
    rw [← hnow] at hc
    have hback : (∃ r s', (s.heap.lists (.fixtures .chTflst tc)).findSomeM?
        (runTeardown x (runNested x) .chTflst .nofork) s2 = .ok r s') ↔ _ :=
      findSomeM_runTeardown_comesBack h2 htalk2.readable hctx hc
    rw [hfork2, hnow] at hback
    rw [← hback]
    -- what follows the test
    have hseq : tcaseRunTfunNofork x (runNested x) tc tfun i s =
        (tcaseRunCheckedTeardown x (runNested x) tc >>= fun _ => do
          let name ← read fun s => s.heap.tcName tc
          let now ← read fun s => s.now
          receiveResultInfoNofork x name tfun.ttest.name i (testDuration x now)) s2 :=
      (bind_of_ok _ hset).trans (bind_of_ok _ hcall)
    have hteardowns : tcaseRunCheckedTeardown x (runNested x) tc s2 =
        ((s.heap.lists (.fixtures .chTflst tc)).findSomeM?
          (runTeardown x (runNested x) .chTflst .nofork) >>= fun _ => pure ()) s2 := by
      rw [← hheap]
      rfl
    constructor
    · rintro ⟨tr, s', hrun⟩
      rw [hseq] at hrun
      obtain ⟨_, s3, htear, -⟩ := bind_eq_ok.mp hrun
      rw [hteardowns] at htear
      obtain ⟨r, s4, htear, -⟩ := bind_eq_ok.mp htear
      exact ⟨r, s4, htear⟩
    · rintro ⟨r, s3, htear⟩
      obtain ⟨tr, hrcv⟩ := (findSomeM_runTeardown_left h2 htalk2 htear).receive
        (s3.heap.tcName tc) tfun.ttest.name i (testDuration x s3.now)
      have hall : tcaseRunCheckedTeardown x (runNested x) tc s2 = .ok () s3 :=
        hteardowns.trans (bind_of_ok _ htear)
      exact ⟨tr, _, hseq.trans ((bind_of_ok _ hall).trans hrcv)⟩
  constructor
  · rintro ⟨⟨s2, hcall⟩, tr, s', hrun, -⟩
    obtain ⟨⟨hfork, hsets⟩, hn, hfits⟩ := hbody.mp ⟨s2, hcall⟩
    exact ⟨⟨decide_eq_false hfork, hsets, hn⟩, hfits, (hrest hcall).mp ⟨tr, s', hrun⟩⟩
  · rintro ⟨⟨hfork, hsets, hn⟩, hfits, hteardowns⟩
    obtain ⟨s2, hcall⟩ := hbody.mpr ⟨⟨of_decide_eq_false hfork, hsets⟩, hn, hfits⟩
    obtain ⟨tr, s', hrun⟩ := (hrest hcall).mpr hteardowns
    have hfails : fails (tfun.ttest.fn i s.now) = true := by
      obtain ⟨-, -, -, -, hb, -⟩ := protect_callTest_left h1 hread1 hcall
      rw [hb, hsil.now]
    refine ⟨⟨s2, hcall⟩, tr, s', hrun, (tcaseRunTfunNofork_rtype hmode h.file1 hrun).2.mpr ?_⟩
    rw [testFails, hfails, Bool.true_or, Bool.or_true, Bool.or_true]

end

/-! ## the code -/

section

variable {x : Ctx} {s : St CkList UInt8 NestedRun} {t : St List SendMsg NestedRun}

theorem StRel.fields (hst : StRel x.cfg s t) :
    t.sr = s.sr.abs ∧ t.heap = s.heap.abs ∧ t.now = s.now ∧ t.proc.fstat = s.proc.fstat ∧
      t.proc.killIn = s.proc.killIn := by
  cases hst with
  | mk _ _ => exact ⟨rfl, rfl, rfl, rfl, rfl⟩

theorem StRel.steady (hst : StRel x.cfg s t) (h1 : s.proc.sendFile1.isSome)
    (h2 : s.proc.sendFile2 = none) (hlive : s.proc.killIn = none) : Steady x t where
  code := ⟨s, hst⟩
  file1 := hst.file1_isSome.trans h1
  file2 := by
    cases hst with
    | mk _ file2 =>
        rw [h2] at file2
        cases file2
        rfl
  killIn := hst.fields.2.2.2.2.trans hlive

theorem asserted_view (s : St CkList UInt8 NestedRun) (t : St List SendMsg NestedRun)
    (hst : StRel x.cfg s t) : s.asserted x.lvl = t.asserted x.lvl :=
  congrArg (asserts x.lvl) hst.hist_eq.symm

/-- An unchecked setup that fails an assertion. -/
theorem runTcase_recorded_iff {tc : TCaseId} (hst : StRel x.cfg s t) (hs : t.proc.Readable)
    (h1 : s.proc.sendFile1.isSome) (hlive : s.proc.killIn = none)
    (hch : Changes (St.asserted x.lvl) (srunnerRunUncheckedSetup x (runNested x) tc) s) :
    (∃ tr s', srunnerRunUncheckedSetup x (runNested x) tc s = .ok false s' ∧
        runTcase x (runNested x) tc s = .ok () s' ∧
        s'.sr.resultlst.elems = s.sr.resultlst.elems ++ [tr] ∧ tr.rtype = .failure) ↔
      runsUntilFailure s.now (s.heap.lists (.fixtures .unchSflst tc)).elems = [] ∧
        ∀ a, firstAssertion s.now (s.heap.lists (.fixtures .unchSflst tc)).elems = some a →
          a.Fits x.cfg := by
  have hsim := sim_srunnerRunUncheckedSetup (x := x) (sparesCase_runNested _) (sim_runNested _) tc
  obtain ⟨hsr, hheap, hnow, -, hkill⟩ := hst.fields
  have hiff := srunnerRunUncheckedSetup_handled_iff (hst.file1_isSome.trans h1)
    (hkill.trans hlive) hs (hsim.changes asserted_view hst hch)
  rw [hnow, hheap, hsr] at hiff
  refine Iff.trans ⟨?_, ?_⟩ hiff
  · rintro ⟨tr, s', hrun, -, hlst, hrtype⟩
    obtain ⟨t', hrun', hst'⟩ := hsim.of_ok hst hrun
    exact ⟨tr, t', hrun', by rw [hst'.fields.1]; exact hlst, hrtype⟩
  · rintro ⟨tr, t', hrun, hlst, hrtype⟩
    obtain ⟨s', hrun', hst'⟩ := hsim.to_ok hst hrun
    rw [hst'.fields.1] at hlst
    exact ⟨tr, s', hrun', bind_of_ok _ hrun', hlst, hrtype⟩

/-- What follows the end of a test, up to the next one. -/
def record {L : Type → Type} {β ν : Type} [Lists L] (x : Ctx) (tr : TestResult) :
    RunM L β ν Unit := do
  srunnerAddFailure tr
  logTestEnd x tr

theorem sim_record {ν : Type} (x : Ctx) (tr : TestResult) :
    Sim (StRel x.cfg) (record x tr : RunM CkList UInt8 ν Unit) (record x tr) :=
  Sim.bind (sim_srunnerAddFailure tr) fun _ => sim_srunnerSendEvt x _ _

/-- A test without forking that fails an assertion. -/
theorem tcaseRunTfun_recorded_iff {tc : TCaseId} {tfun : TF NestedRun} {i : Int}
    {s1 : St CkList UInt8 NestedRun} (hst : StRel x.cfg s t) (hs : t.proc.Readable)
    (h1 : s.proc.sendFile1.isSome) (h2 : s.proc.sendFile2 = none) (hlive : s.proc.killIn = none)
    (hlog : s.sr.loglst = true) (hmode : forkStatusOf x.env s.sr.fstat = .nofork)
    (hset : tcaseRunCheckedSetup x (runNested x) tc s = .ok none s1)
    (hch : Changes (St.asserted x.lvl) (protect x (callTest x (runNested x) tfun i)) s1)
    (hc : ∀ c ∈ runsUntilFailure s.now (s.heap.lists (.fixtures .chTflst tc)).elems, c.Complete x) :
    ((∃ s2, protect x (callTest x (runNested x) tfun i) s1 = .ok true s2) ∧
        ∃ tr s' s'', tcaseRunTfun x (runNested x) tc tfun i s = .ok tr s' ∧ tr.rtype = .failure ∧
          record x tr s' = .ok () s'' ∧
          s''.sr.resultlst.elems = s.sr.resultlst.elems ++ [tr]) ↔
      AssertionHandled x.cfg s.heap s.now (decide (s.proc.fstat = .fork)) tc tfun i := by
  have hsimTest := sim_protect (x := x) (sim_callTest (x := x) (sim_runNested _) tfun i)
  have hsimRun := sim_tcaseRunTfun (x := x) (sparesCase_runNested _) (sim_runNested _) tc tfun i
  obtain ⟨hsr, hheap, hnow, hfstat, -⟩ := hst.fields
  have h := hst.steady h1 h2 hlive
  obtain ⟨t1, hset', hst1⟩ :=
    (sim_tcaseRunCheckedSetup (x := x) (sparesCase_runNested _) (sim_runNested _) tc).of_ok hst hset
  have hmode' : forkStatusOf x.env t.sr.fstat = .nofork := by
    rw [hsr]
    exact hmode
  have hmode_eq : tcaseRunTfun x (runNested x) tc tfun i t =
      tcaseRunTfunNofork x (runNested x) tc tfun i t := by
    rw [tcaseRunTfun, srunnerForkStatus, read_bind, hmode']
  rw [← hnow, ← show t.heap.lists (.fixtures .chTflst tc) =
    (s.heap.lists (.fixtures .chTflst tc)).elems by rw [hheap]; rfl] at hc
  have hiff := tcaseRunTfunNofork_handled_iff h hs hmode' hset'
    (hsimTest.changes asserted_view hst1 hch) hc
  rw [hnow, hheap, hfstat] at hiff
  refine Iff.trans ⟨?_, ?_⟩ hiff
  · rintro ⟨⟨s2, hcall⟩, tr, s', -, hrun, hrtype, -⟩
    obtain ⟨t2, hcall', -⟩ := hsimTest.of_ok hst1 hcall
    obtain ⟨t', hrun', -⟩ := hsimRun.of_ok hst hrun
    exact ⟨⟨t2, hcall'⟩, tr, t', hmode_eq.symm.trans hrun', hrtype⟩
  · rintro ⟨⟨t2, hcall'⟩, tr, t', hrun', hrtype⟩
    obtain ⟨s2, hcall, -⟩ := hsimTest.to_ok hst1 hcall'
    obtain ⟨s', hrun, hst'⟩ := hsimRun.to_ok hst (hmode_eq.trans hrun')
    refine ⟨⟨s2, hcall⟩, tr, s', ?_⟩
    -- the result is added and logged
    have hsil : Silent x t t' :=
      silent_of_closed (fun _ hP => hP.tcaseRunTfunNofork tc tfun i) hrun'
    have hlog' : t'.sr.loglst = true := by
      rw [hsil.sr, hsr]
      exact hlog
    have hname : tr.tcname ≠ none := by
      rw [(tcaseRunTfunNofork_rtype hmode' h.file1 hrun').1]
      exact Option.some_ne_none _
    obtain ⟨t'', hrecord', hlst⟩ := record_ok (x := x) hlog'
      (returns_tcaseRunTfun ⟨t, t', hmode_eq.trans hrun'⟩) hname
    obtain ⟨s'', hrecord, hst''⟩ := (sim_record x tr).to_ok hst' hrecord'
    rw [hst''.fields.1, hsil.sr, hsr] at hlst
    exact ⟨s'', hrun, hrtype, hrecord, hlst⟩

/-- **Assertions after nested runs**: a failing assertion in an unchecked setup is
handled by `longjmp`, recorded as a failure, and the run goes on to the next test case, if and
only if none of the setups up to that one has made a run and the messages of the assertion are
within the limit.  A failing assertion in a test without forking is handled by `longjmp`,
recorded as a failure and logged, and the run goes on to the next test, if and only if besides
the checked teardowns come back that are called after it: none of them ends the process, or
fails an assertion after a nested run. -/
theorem nested_assertion_handled_iff {old : List SendMsg} (hpipe : PipeHolds x.cfg s.proc old)
    (hold : ∀ m ∈ old, m.NonNeg) (h1 : s.proc.sendFile1.isSome) (h2 : s.proc.sendFile2 = none)
    (hlive : s.proc.killIn = none) (hlog : s.sr.loglst = true) :
    (∀ tc, Changes (St.asserted x.lvl) (srunnerRunUncheckedSetup x (runNested x) tc) s →
      ((∃ tr s', srunnerRunUncheckedSetup x (runNested x) tc s = .ok false s' ∧
          runTcase x (runNested x) tc s = .ok () s' ∧
          s'.sr.resultlst.elems = s.sr.resultlst.elems ++ [tr] ∧ tr.rtype = .failure) ↔
        runsUntilFailure s.now (s.heap.lists (.fixtures .unchSflst tc)).elems = [] ∧
          ∀ a, firstAssertion s.now (s.heap.lists (.fixtures .unchSflst tc)).elems = some a →
            a.Fits x.cfg)) ∧
    ∀ tc tfun i s1, forkStatusOf x.env s.sr.fstat = .nofork →
      tcaseRunCheckedSetup x (runNested x) tc s = .ok none s1 →
      Changes (St.asserted x.lvl) (protect x (callTest x (runNested x) tfun i)) s1 →
      (∀ c ∈ runsUntilFailure s.now (s.heap.lists (.fixtures .chTflst tc)).elems, c.Complete x) →
      (((∃ s2, protect x (callTest x (runNested x) tfun i) s1 = .ok true s2) ∧
          ∃ tr s' s'', tcaseRunTfun x (runNested x) tc tfun i s = .ok tr s' ∧ tr.rtype = .failure ∧
            record x tr s' = .ok () s'' ∧
            s''.sr.resultlst.elems = s.sr.resultlst.elems ++ [tr]) ↔
        AssertionHandled x.cfg s.heap s.now (decide (s.proc.fstat = .fork)) tc tfun i) := by
  obtain ⟨t, f, hst, hf, hcontent⟩ := hpipe.exists_stRel
  have hread : t.proc.Readable := ⟨f, hf, by rw [hcontent]; exact hold⟩
  exact ⟨fun tc hch => runTcase_recorded_iff hst hread h1 hlive hch,
    fun tc tfun i s1 hmode hset hch hc =>
      tcaseRunTfun_recorded_iff hst hread h1 h2 hlive hlog hmode hset hch hc⟩

end

/-- A test case with an unchecked setup and a test that fail. -/
def Sample.failingBoth : Sample.Case NestedRun :=
  ⟨fun fl => if fl = .unchSflst then [Sample.fixture [Sample.fail]] else [],
    [Sample.test [Sample.fail]], none⟩

/-- A run without forking in which that test case is next. -/
def Sample.aboutToFail : St CkList UInt8 NestedRun :=
  { Sample.running [Sample.failingBoth] .nofork with
    sr := { (Sample.running [Sample.failingBoth] .nofork).sr with loglst := true } }

/-- Without a nested run, both failures are recorded and the run goes on. -/
theorem nested_assertion_handled_iff_failingBoth :
    (∃ tr s', runTcase Sample.ctx (runNested Sample.ctx) 0 Sample.aboutToFail = .ok () s' ∧
      s'.sr.resultlst.elems = [tr] ∧ tr.rtype = .failure) ∧
    ∃ tr s' s'', tcaseRunTfun Sample.ctx (runNested Sample.ctx) 0 (Sample.test [Sample.fail]) 0
        Sample.aboutToFail = .ok tr s' ∧ tr.rtype = .failure ∧
      record Sample.ctx tr s' = .ok () s'' ∧ s''.sr.resultlst.elems = [tr] := by
  have hpipe : PipeHolds Sample.cfg Sample.aboutToFail.proc [] :=
    Sample.pipeHolds_running [Sample.failingBoth] .nofork
  obtain ⟨hsetup, htest⟩ := nested_assertion_handled_iff (x := Sample.ctx) (s := Sample.aboutToFail)
    hpipe (fun _ hm => absurd hm List.not_mem_nil) rfl rfl rfl rfl
  have hch1 : Changes (St.asserted 0) (srunnerRunUncheckedSetup Sample.ctx (runNested Sample.ctx) 0)
      Sample.aboutToFail := by
    unfold Changes
    decide +kernel
  have hfits : Assertion.Fits Sample.cfg ⟨Sample.loc, .lit "x == y", none⟩ := by decide +kernel
  obtain ⟨s1, hset, hch2⟩ : ∃ s1, tcaseRunCheckedSetup Sample.ctx (runNested Sample.ctx) 0
        Sample.aboutToFail = .ok none s1 ∧
      Changes (St.asserted 0) (protect Sample.ctx (callTest Sample.ctx (runNested Sample.ctx)
        (Sample.test [Sample.fail]) 0)) s1 := by
    refine ⟨_, rfl, ?_⟩
    unfold Changes
    decide +kernel
  have hbody : AssertionHandled Sample.cfg Sample.aboutToFail.heap Sample.aboutToFail.now false 0
      (Sample.test [Sample.fail]) 0 := by
    refine ⟨⟨rfl, fun _ hf => absurd hf List.not_mem_nil, rfl⟩, ?_, rfl⟩
    rintro a ⟨rfl⟩
    exact hfits
  have hfirst : ∀ a, firstAssertion Sample.aboutToFail.now
      (Sample.aboutToFail.heap.lists (.fixtures .unchSflst 0)).elems = some a →
        a.Fits Sample.cfg := by
    rintro a ⟨rfl⟩
    exact hfits
  obtain ⟨tr, s', -, hrun, hlst, hrtype⟩ := (hsetup 0 hch1).mpr ⟨rfl, hfirst⟩
  have hrec := (htest 0 _ 0 s1 rfl hset hch2 (fun _ hc => absurd hc List.not_mem_nil)).mpr hbody
  exact ⟨⟨tr, s', hrun, hlst, hrtype⟩, hrec.2⟩

/-- The assertion ends the process of the runner: nothing is recorded, and the
second test case is not run. -/
theorem assertion_exits_after_nested_run :
    ∃ s', srunnerRunTagged Sample.ctx (runNested Sample.ctx) Sample.args
        (Sample.start Sample.nesting .nofork) = .error (.exited 1) s' ∧
      s'.sr.resultlst.elems = [] ∧ tcases 0 s'.proc.hist = [0] ∧
      s'.asserted 0 = [⟨Sample.loc, .lit "x == y", none⟩] := by
  have hstop : (stopped (srunnerRunTagged Sample.ctx (runNested Sample.ctx) Sample.args
      (Sample.start Sample.nesting .nofork))).map (fun r =>
        (decide (r.1 = .exited 1), r.2.sr.resultlst.elems.length, tcases 0 r.2.proc.hist,
          r.2.asserted 0)) = some (true, 0, [0], [⟨Sample.loc, .lit "x == y", none⟩]) := by
    decide +kernel
  obtain ⟨e, s', hrun, hres⟩ := error_of_stopped hstop
  simp only [Prod.mk.injEq, List.length_eq_zero_iff, decide_eq_true_eq] at hres
  obtain ⟨rfl, hlst, hcases, hassert⟩ := hres
  exact ⟨s', hrun, hlst, hcases, hassert⟩

end LibCheck
