import LibCheck.Attribution
import LibCheck.Verdict

/-!
# LibCheck.Reentry

Failing assertions after a run inside a run.

A run ends with `set_fork_status(CK_FORK)`, whatever the fork status was
before.  A function of the surrounding run that was called with `CK_NOFORK`
and fails an assertion after that ends the process of the runner.

* `runFun_jumped`, `runFun_jumps` — a function is left by `longjmp` only if it
  has made no run, and is if it has made none.
* `srunnerRunUncheckedSetup_handled_iff`, `protect_callTest_handled_iff` — the assertion is
  handled in the mode of the function if and only if no run was made before and its messages
  are within the limit.
-/

namespace LibCheck

open Prog

/-! ## nobody kills the process -/

section

variable {ν : Type} {x : Ctx}

/-- The process is not going to be killed. -/
def St.Spared (s : St List SendMsg ν) : Prop := s.proc.killIn = none

/-- The programs that keep it so. -/
abbrev Spares (y : RunM List SendMsg ν α) : Prop := Maintains St.Spared (fun _ _ => True) y

theorem spares_killPoint : Spares (killPoint : RunM List SendMsg ν Unit) := by
  intro s hs
  rw [killPoint, read_bind, show s.proc.killIn = none from hs]
  exact hs

theorem spares_sendMsg (m : SendMsg) : Spares (sendMsg x m : RunM List SendMsg ν Unit) := by
  refine Maintains.bind spares_killPoint fun _ => Maintains.bind (Maintains.read _) fun _ =>
    Maintains.ite (Maintains.throw fun _ _ => trivial) ?_
  cases (Wire.ppack x.cfg m : Except EPrintf (List SendMsg)) with
  | error e => exact Maintains.throw fun _ _ => trivial
  | ok data =>
      refine Maintains.update fun s hs => ?_
      show (s.proc.fwrite data).killIn = none
      rw [Proc.fwrite_eq]
      exact hs

theorem spares_receiveTestResult (w : Bool) :
    Spares (receiveTestResult x w : RunM List SendMsg ν TestResult) := by
  intro s hs
  rw [receiveTestResult_apply]
  generalize (s.proc.getPipe.map fun f => rcvOutcome (Wire.punpack x.cfg f.content)) = r
  match r with
  | none => trivial
  | some (.error e) => trivial
  | some (.ok rmsg) =>
      show s.proc.renew.killIn = none
      simp only [Proc.renew]
      split <;> exact hs

/-- Only the child of a process is killed. -/
theorem spares_forkChild (p : RunM List SendMsg ν Unit) : Spares (forkChild x p) := by
  intro s hs
  simp only [forkChild]
  cases p (s.onProc fun q => { q with killIn := x.env.kill s.now }) with
  | ok a c => exact hs
  | error e c =>
      cases e with
      | exited code => exact hs
      | signaled sig => exact hs
      | undefined => trivial
      | diverged => trivial
      | brokenOff => trivial

theorem testClosed_spares {call : ν → RunM List SendMsg ν Unit} (hcall : ∀ c, Spares (call c)) :
    TestClosed x call fun {α} (y : RunM List SendMsg ν α) => Spares y where
  toSeqClosed := seqClosed_maintains fun _ _ _ _ => trivial
  forList _ _ hb := fun s hs => Maintains.findSomeM (fun f _ => hb f) s hs
  fork p _ := spares_forkChild p
  kill := spares_killPoint
  send := spares_sendMsg
  receive := spares_receiveTestResult
  assertion _ := Maintains.update fun _ hs => hs
  fixture _ _ := Maintains.update fun _ hs => hs
  body _ _ := Maintains.update fun _ hs => hs
  setjmp := Maintains.update fun _ hs => hs
  alarm _ := Maintains.update fun _ hs => hs
  call := hcall

theorem spares_callLfun (lg : Log) (evt : ClEvent) (obj : LogObj) :
    Spares (callLfun x lg evt obj : RunM List SendMsg ν Unit) := by
  refine Maintains.bind (Maintains.update fun s hs => ?_) fun _ =>
    Maintains.bind (Maintains.read _) fun _ => Maintains.bind (Maintains.update fun s hs => ?_)
      fun _ => Maintains.bind (Maintains.read _) fun _ => Maintains.bind (Maintains.read _) fun _ =>
        Maintains.bind (Maintains.read _) fun _ => Maintains.bind (Maintains.read _) fun _ =>
          Maintains.bind (Maintains.update fun _ hs => hs) fun _ => ?_
  · simp only [St.onProc, St.Spared]
    split <;> exact hs
  · simp only [St.onProc, St.Spared]
    split <;> exact hs
  · cases lfunStop lg.lfun obj with
    | none => exact Maintains.pure ()
    | some e => exact Maintains.throw fun _ _ => trivial

theorem runClosed_spares {call : ν → RunM List SendMsg ν Unit} (hcall : ∀ c, Spares (call c)) :
    RunClosed x call fun {α} (y : RunM List SendMsg ν α) => Spares y where
  toTestClosed := testClosed_spares hcall
  fstat _ := Maintains.update fun _ hs => hs
  addFailure _ _ := Maintains.update fun _ hs => hs
  occasion _ := Maintains.update fun _ hs => hs
  iter _ _ _ := Maintains.update fun _ hs => hs
  event obj evt := (testClosed_spares hcall).srunnerSendEvt fun lg => spares_callLfun lg evt obj
  logs _ := Maintains.update fun _ hs => hs
  loglst _ := Maintains.update fun _ hs => hs
  tagLst _ _ := Maintains.update fun _ hs => hs
  tcase _ := Maintains.update fun _ hs => hs

theorem spares_runNested (c : NestedRun) :
    Spares (runNested x c : RunM List SendMsg NestedRun Unit) := by
  have hthrow : ∀ e : EPrintf, Spares (eprintf e : RunM List SendMsg Empty Unit) := fun _ =>
    Maintains.throw fun _ _ => trivial
  have hrun : Spares (srunnerRunTagged (x.nested c.env) Empty.elim c.args :
      RunM List SendMsg Empty Unit) :=
    (runClosed_spares fun c => c.elim).srunnerRunTagged
      (Maintains.bind (Maintains.read _) fun _ => Maintains.ite (Maintains.update fun _ hs => hs)
        (Maintains.bind (Maintains.read _) fun _ => Maintains.ite (Maintains.update fun _ hs => hs)
          (hthrow _)))
      (Maintains.bind (Maintains.read _) fun _ => Maintains.ite (Maintains.update fun _ hs => hs)
        (Maintains.bind (Maintains.read _) fun _ => Maintains.ite (Maintains.update fun _ hs => hs)
          (hthrow _)))
      (fun _ => Maintains.update fun _ hs => hs) c.args
  intro s hs
  have hend := hrun (c.start s.proc) hs
  simp only [runNested]
  cases hres : srunnerRunTagged (x.nested c.env) Empty.elim c.args
      (c.start s.proc : St List SendMsg Empty) with
  | ok a s' =>
      rw [hres] at hend
      exact hend
  | error e s' => trivial

end

/-! ## user functions -/

/-- The failing assertions of the run at hand. -/
def St.asserted {L : Type → Type} {β ν : Type} (lvl : Nat) (s : St L β ν) : List Assertion :=
  asserts lvl s.proc.hist

/-- The assertion that a function ends in. -/
def assertionOf {ν : Type} : List (Act ν) → Option Assertion
  | .markPoint _ :: acts => assertionOf acts
  | .call _ :: acts => assertionOf acts
  | .assertFailed loc expr msg :: _ => some ⟨loc, expr, msg⟩
  | _ => none

theorem fails_eq_isSome {ν : Type} (acts : List (Act ν)) :
    fails acts = (assertionOf acts).isSome := by
  induction acts with
  | nil => rfl
  | cons act acts ih =>
      cases act with
      | markPoint loc => exact ih
      | call c => exact ih
      | assertFailed loc expr msg => rfl
      | exit status => rfl
      | raise sig => rfl

/-- The messages of the assertion that a function ends in are within the limit. -/
def AssertionFits {ν : Type} (cfg : Config) (acts : List (Act ν)) : Prop :=
  ∀ a, assertionOf acts = some a → a.Fits cfg

section

variable {x : Ctx} {s s' : St List SendMsg NestedRun}

/-- A message leaves the control flow alone. -/
theorem sendMsg_control {m : SendMsg} (h : sendMsg x m s = .ok () s') :
    s'.proc.fstat = s.proc.fstat ∧ s'.proc.errorJmpBuffer = s.proc.errorJmpBuffer ∧
      s'.now = s.now := by
  rcases sendMsg_apply x m s with ⟨n, sig, -, he⟩ | ⟨-, he⟩ | ⟨data, hm, hp, he⟩
  · rw [he] at h
    cases h
  · rw [he] at h
    cases h
  · rw [he] at h
    cases h
    show (s.proc.granted.fwrite data).fstat = _ ∧
      (s.proc.granted.fwrite data).errorJmpBuffer = _ ∧ _
    rw [Proc.fwrite_eq, Proc.granted_eq]
    exact ⟨rfl, rfl, rfl⟩

theorem sendMsg_spared {m : SendMsg} (hkill : s.proc.killIn = none)
    (h : sendMsg x m s = .ok () s') : s'.proc.killIn = none := by
  have hspared : s'.Spared := Maintains.of_ok (I := St.Spared) (spares_sendMsg m) hkill h
  exact hspared

theorem not_changes_sendMsg (m : SendMsg) : ¬ Changes (St.asserted x.lvl) (sendMsg x m) s := by
  intro h
  refine h ?_
  rcases sendMsg_apply x m s with ⟨n, sig, -, he⟩ | ⟨-, he⟩ | ⟨data, hm, hp, he⟩
  · rw [he]
    rfl
  · rw [he]
    show asserts x.lvl s.proc.granted.hist = _
    rw [Proc.granted_eq]
    rfl
  · rw [he]
    show asserts x.lvl (s.proc.granted.fwrite data).hist = _
    rw [Proc.hist_fwrite, Proc.granted_eq]
    rfl

theorem not_changes_killPoint :
    ¬ Changes (St.asserted x.lvl) (killPoint : RunM List SendMsg NestedRun Unit) s := by
  intro h
  rcases h.of_bind with h | ⟨k, s1, -, -, h⟩
  · exact h rfl
  · match k with
    | none => exact h rfl
    | some (0, sig) => exact h rfl
    | some (n + 1, sig) => exact h rfl

theorem not_changes_runNested (c : NestedRun) :
    ¬ Changes (St.asserted x.lvl) (runNested x c : RunM List SendMsg NestedRun Unit) s := by
  intro h
  have hobs := runNested_shown x Obs.assertFailed? _ c s rfl
  cases hres : (runNested x c s : EStateM.Result Stop (St List SendMsg NestedRun) Unit) with
  | error e s' =>
      rw [hres] at hobs
      exact h (by rw [hres]; exact hobs.1)
  | ok a s' =>
      rw [hres] at hobs
      exact h (by rw [hres]; exact hobs)

/-- The fork status after a user function. -/
theorem runFun_fstat {acts : List (Act NestedRun)} {b : Bool} (h1 : s.proc.sendFile1.isSome)
    (h : runFun x (runNested x) acts s = .ok b s') :
    s'.proc.fstat = if nestedRuns acts = [] then s.proc.fstat else .fork := by
  induction acts generalizing s with
  | nil =>
      cases h
      rfl
  | cons act acts ih =>
      cases act with
      | markPoint loc =>
          obtain ⟨_, s1, hsend, h⟩ := bind_eq_ok.mp h
          rw [ih (sendMsg_file1 h1 hsend) h, (sendMsg_control hsend).1]
          rfl
      | assertFailed loc expr msg =>
          obtain ⟨_, s1, hassert, h⟩ := bind_eq_ok.mp h
          cases h
          obtain ⟨⟨s2, hloc, hfail⟩, -⟩ := ckAssertFailed_ok hassert
          rw [(sendMsg_control hfail).1, (sendMsg_control hloc).1]
          rfl
      | exit status =>
          obtain ⟨_, s1, -, h⟩ := bind_eq_ok.mp h
          cases h
      | raise sig => cases h
      | call c =>
          obtain ⟨_, s1, hcall, h⟩ := bind_eq_ok.mp h
          obtain ⟨f, hf⟩ := Option.isSome_iff_exists.mp h1
          obtain ⟨-, hf1, -, hfork⟩ := runNested_ok hf hcall
          rw [ih (by rw [hf1]; rfl) h, hfork, ite_self]
          rfl

/-- What was sent was within the limit. -/
theorem limited_of_sendMsg {m : SendMsg} (hnn : m.NonNeg) (h : sendMsg x m s = .ok () s') :
    Limited x.cfg.maxMsg [m] := by
  rcases sendMsg_apply x m s with ⟨n, sig, -, he⟩ | ⟨-, he⟩ | ⟨data, hm, -, he⟩
  · cases he.symm.trans h
  · cases he.symm.trans h
  · exact (wire_ppack_ok_iff hnn).mp ⟨data, hm⟩

/-- The two messages of a failing assertion that jumps were within the limit. -/
theorem fits_of_ckAssertFailed {loc : SrcLoc} {expr : CStr} {msg : Option CStr}
    (h : ckAssertFailed x loc expr msg s = .ok () s') :
    Assertion.Fits x.cfg ⟨loc, expr, msg⟩ := by
  obtain ⟨⟨s1, hloc, hfail⟩, -⟩ := ckAssertFailed_ok h
  exact Assertion.fits_iff.mpr
    ⟨limited_of_sendMsg loc.nonNeg_msg hloc, limited_of_sendMsg trivial hfail⟩

/-- A function that is left by a jump was called with another fork status than
`CK_FORK`, has made no run, and its assertion is within the limit. -/
theorem runFun_jumped {acts : List (Act NestedRun)} (h1 : s.proc.sendFile1.isSome)
    (h : runFun x (runNested x) acts s = .ok true s') :
    s.proc.fstat ≠ .fork ∧ nestedRuns acts = [] ∧ AssertionFits x.cfg acts := by
  induction acts generalizing s with
  | nil => cases h
  | cons act acts ih =>
      cases act with
      | markPoint loc =>
          obtain ⟨_, s1, hsend, h⟩ := bind_eq_ok.mp h
          obtain ⟨hf, hn⟩ := ih (sendMsg_file1 h1 hsend) h
          rw [(sendMsg_control hsend).1] at hf
          exact ⟨hf, hn⟩
      | assertFailed loc expr msg =>
          obtain ⟨_, s1, hassert, -⟩ := bind_eq_ok.mp h
          obtain ⟨⟨s2, hloc, hfail⟩, hfork, -⟩ := ckAssertFailed_ok hassert
          rw [(sendMsg_control hfail).1, (sendMsg_control hloc).1] at hfork
          refine ⟨hfork, rfl, fun a ha => ?_⟩
          cases ha
          exact fits_of_ckAssertFailed hassert
      | exit status =>
          obtain ⟨_, s1, -, h⟩ := bind_eq_ok.mp h
          cases h
      | raise sig => cases h
      | call c =>
          obtain ⟨_, s1, hcall, h⟩ := bind_eq_ok.mp h
          obtain ⟨f, hf⟩ := Option.isSome_iff_exists.mp h1
          obtain ⟨-, hf1, -, hfork⟩ := runNested_ok hf hcall
          exact absurd hfork (ih (by rw [hf1]; rfl) h).1

/-- A function that fails an assertion ends in it. -/
theorem fails_of_changes {acts : List (Act NestedRun)}
    (h : Changes (St.asserted x.lvl) (runFun x (runNested x) acts) s) : fails acts = true := by
  induction acts generalizing s with
  | nil => exact absurd rfl h
  | cons act acts ih =>
      cases act with
      | markPoint loc =>
          rcases h.of_bind with h | ⟨_, s1, -, -, h⟩
          · exact absurd h (not_changes_sendMsg _)
          · exact ih h
      | assertFailed loc expr msg => rfl
      | exit status =>
          rcases h.of_bind with h | ⟨_, s1, -, -, h⟩
          · exact absurd h not_changes_killPoint
          · exact absurd rfl h
      | raise sig => exact absurd rfl h
      | call c =>
          rcases h.of_bind with h | ⟨_, s1, -, -, h⟩
          · exact absurd h (not_changes_runNested c)
          · exact ih h

/-- A failing assertion jumps, unless the fork status is `CK_FORK`. -/
theorem ckAssertFailed_jumps (hr : Ready s) (hf : s.proc.fstat ≠ .fork)
    (hj : s.proc.errorJmpBuffer = some x.lvl) {a : Assertion} (hfits : a.Fits x.cfg) :
    ∃ s', (do
      ckAssertFailed x a.loc a.expr a.msg
      pure true) s = .ok true s' := by
  obtain ⟨s', -, hrun⟩ := ckAssertFailed_of_ready hr a.loc a.expr a.msg hfits
  exact ⟨s', by rw [hrun, leave, if_neg hf, if_pos hj]⟩

/-- A function that makes no run is left by a jump when it fails an assertion within the limit,
unless the fork status is `CK_FORK`. -/
theorem runFun_jumps {acts : List (Act NestedRun)}
    (h : Changes (St.asserted x.lvl) (runFun x (runNested x) acts) s)
    (h1 : s.proc.sendFile1.isSome) (hkill : s.proc.killIn = none) (hf : s.proc.fstat ≠ .fork)
    (hj : s.proc.errorJmpBuffer = some x.lvl) (hn : nestedRuns acts = [])
    (hfits : AssertionFits x.cfg acts) :
    ∃ s', runFun x (runNested x) acts s = .ok true s' := by
  induction acts generalizing s with
  | nil => exact absurd rfl h
  | cons act acts ih =>
      cases act with
      | markPoint loc =>
          rcases h.of_bind with h | ⟨_, s1, hsend, -, h⟩
          · exact absurd h (not_changes_sendMsg _)
          · obtain ⟨hf1, hj1, -⟩ := sendMsg_control hsend
            have hkill1 : s1.proc.killIn = none := sendMsg_spared hkill hsend
            have hf1 : s1.proc.fstat ≠ .fork := by rwa [hf1]
            obtain ⟨s', hs'⟩ := ih h (sendMsg_file1 h1 hsend) hkill1 hf1 (hj1.trans hj) hn hfits
            exact ⟨s', (bind_of_ok _ hsend).trans hs'⟩
      | assertFailed loc expr msg =>
          have hready : Ready s := ⟨hkill, Proc.isSome_getPipe h1⟩
          exact ckAssertFailed_jumps (a := ⟨loc, expr, msg⟩) hready hf hj (hfits _ rfl)
      | exit status =>
          rcases h.of_bind with h | ⟨_, s1, -, -, h⟩
          · exact absurd h not_changes_killPoint
          · exact absurd rfl h
      | raise sig => exact absurd rfl h
      | call c => cases hn

/-! ## setups -/

/-- A result can be received: all messages can be, and a context is among
them. -/
def Proc.Talking (p : Proc SendMsg) : Prop :=
  ∃ f, p.getPipe = some f ∧ (∀ m ∈ f.content, m.NonNeg) ∧
    (received rcvmsgCreate f.content).lastctx ≠ .invalid

/-- All messages can be received. -/
def Proc.Readable (p : Proc SendMsg) : Prop :=
  ∃ f, p.getPipe = some f ∧ ∀ m ∈ f.content, m.NonNeg

/-- What a message adds to the current message file. -/
theorem sendMsg_content {m : SendMsg} {f : Pipe SendMsg} (hf : s.proc.getPipe = some f)
    (h : sendMsg x m s = .ok () s') :
    ∃ g, s'.proc.getPipe = some g ∧ g.content = f.content ++ [m] := by
  rcases sendMsg_apply x m s with ⟨n, sig, -, he⟩ | ⟨-, he⟩ | ⟨data, hm, hp, he⟩
  · rw [he] at h
    cases h
  · rw [he] at h
    cases h
  · rw [he, wire_ppack_ok hm] at h
    cases h
    have hf' : s.proc.granted.getPipe = some f := by
      rw [Proc.getPipe_granted]
      exact hf
    show ∃ g, (s.proc.granted.fwrite [m]).getPipe = some g ∧ _
    generalize s.proc.granted = p at hf'
    cases e2 : p.sendFile2 with
    | some g =>
        simp only [Proc.getPipe, e2, Option.some.injEq] at hf'
        subst hf'
        exact ⟨{ g with content := g.content ++ [m] }, by simp only [Proc.getPipe,
          Proc.fwrite, e2], rfl⟩
    | none =>
        simp only [Proc.getPipe, e2] at hf'
        exact ⟨{ f with content := f.content ++ [m] },
          by simp only [Proc.getPipe, Proc.fwrite, e2, hf', Option.map_some], rfl⟩

theorem Proc.Readable.talking {c : CkResultCtx} (hs : s.proc.Readable) (hc : c ≠ .invalid)
    (h : sendMsg x (.ctx c) s = .ok () s') : s'.proc.Talking := by
  obtain ⟨f, hf, hnn⟩ := hs
  obtain ⟨g, hg, hcont⟩ := sendMsg_content hf h
  refine ⟨g, hg, ?_, ?_⟩
  · rw [hcont]
    exact List.forall_mem_append.mpr ⟨hnn, List.forall_mem_singleton.mpr (nonNeg_ctx c)⟩
  · rw [hcont, received_append, received_cons, received_nil]
    exact hc

theorem Proc.Talking.send {m : SendMsg} (hs : s.proc.Talking) (hnn : m.NonNeg)
    (hm : m ≠ .ctx .invalid) (h : sendMsg x m s = .ok () s') : s'.proc.Talking := by
  obtain ⟨f, hf, hall, hlast⟩ := hs
  obtain ⟨g, hg, hcont⟩ := sendMsg_content hf h
  refine ⟨g, hg, ?_, ?_⟩
  · rw [hcont]
    exact List.forall_mem_append.mpr ⟨hall, List.forall_mem_singleton.mpr hnn⟩
  · rw [hcont, received_append]
    exact received_lastctx_ne_invalid hlast (List.forall_mem_singleton.mpr hm)

/-- A user function only adds locations and failures. -/
theorem runFun_talking {acts : List (Act NestedRun)} {b : Bool} (h1 : s.proc.sendFile1.isSome)
    (hs : s.proc.Talking) (h : runFun x (runNested x) acts s = .ok b s') : s'.proc.Talking := by
  have hloc : ∀ {loc : SrcLoc} {s s' : St List SendMsg NestedRun}, s.proc.Talking →
      sendLocInfo x loc s = .ok () s' → s'.proc.Talking := by
    intro loc s s' hs h
    have hnn : loc.msg.NonNeg := loc.line_nonneg
    exact hs.send hnn (fun he => nomatch he) h
  induction acts generalizing s with
  | nil =>
      cases h
      exact hs
  | cons act acts ih =>
      cases act with
      | markPoint loc =>
          obtain ⟨_, s1, hsend, h⟩ := bind_eq_ok.mp h
          exact ih (sendMsg_file1 h1 hsend) (hloc hs hsend) h
      | assertFailed loc expr msg =>
          obtain ⟨_, s1, hassert, h⟩ := bind_eq_ok.mp h
          cases h
          obtain ⟨⟨s2, hsend, hfail⟩, -⟩ := ckAssertFailed_ok hassert
          have hnn : (CheckMsg.fail (some (failureText x.cfg expr msg)) : SendMsg).NonNeg := trivial
          have hobs : (s.onProc (Proc.observe x.lvl
              (.assertFailed ⟨loc, expr, msg⟩))).proc.Talking :=
            hs
          exact (hloc hobs hsend).send hnn (fun he => nomatch he) hfail
      | exit status =>
          obtain ⟨_, s1, -, h⟩ := bind_eq_ok.mp h
          cases h
      | raise sig => cases h
      | call c =>
          obtain ⟨_, s1, hcall, h⟩ := bind_eq_ok.mp h
          obtain ⟨f, hf⟩ := Option.isSome_iff_exists.mp h1
          obtain ⟨hnone, hf1, hf2, -⟩ := runNested_ok hf hcall
          have hpipe : s1.proc.getPipe = s.proc.getPipe := by
            rw [Proc.getPipe, Proc.getPipe, hf1, hf2, hf, hnone]
          refine ih (by rw [hf1]; rfl) ?_ h
          rw [Proc.Talking, hpipe]
          exact hs

theorem Proc.renew_readable (p : Proc SendMsg) (h1 : p.sendFile1.isSome) :
    p.renew.Readable ∧ p.renew.fstat = p.fstat ∧ p.renew.sendFile1.isSome := by
  obtain ⟨f, hf⟩ := Option.isSome_iff_exists.mp h1
  cases e2 : p.sendFile2 with
  | some g => simp [renew, hf, e2, Readable, getPipe, openFile2]
  | none => simp [renew, e2, Readable, getPipe, openFile1]

/-- A result is received. -/
theorem Proc.Talking.receive (hs : s.proc.Talking) (tcname tname : CStr) (iter : Int)
    (duration : Int32) :
    ∃ tr, receiveResultInfoNofork x tcname tname iter duration s =
      .ok tr (s.onProc Proc.renew) := by
  obtain ⟨f, hf, hnn, hlast⟩ := hs
  exact ⟨_, bind_of_ok _ (receiveTestResult_of_nonNeg hf hnn hlast false)⟩

theorem not_changes_receive {w : Bool} :
    ¬ Changes (St.asserted x.lvl)
      (receiveTestResult x w : RunM List SendMsg NestedRun TestResult) s := by
  intro h
  refine h ?_
  rw [receiveTestResult_apply]
  split
  · rfl
  · rfl
  · exact congrArg (asserts x.lvl) s.proc.hist_renew

/-- The state in which a user function begins that was called under a `setjmp`. -/
def entered (x : Ctx) (o : Obs) (s : St List SendMsg NestedRun) : St List SendMsg NestedRun :=
  (s.onProc fun p => { p with errorJmpBuffer := some x.lvl }).onProc (Proc.observe x.lvl o)

theorem asserted_entered {o : Obs} (ho : o.assertFailed? = none) :
    (entered x o s).asserted x.lvl = s.asserted x.lvl := by
  show asserts x.lvl (s.proc.hist ++ [(x.lvl, o)]) = asserts x.lvl s.proc.hist
  rw [asserts, shown_append, ho]
  exact List.append_nil _

theorem protect_callFixture_apply (fl : FixtureList) (f : Fixture NestedRun) :
    protect x (callFixture x (runNested x) fl f) s =
      runFun x (runNested x) (f.sfun.acts s.now) (entered x (.fixture fl f.sfun.addr) s) := rfl

/-- The setup of an unchecked fixture that fails an assertion: the failure is
reported as one if and only if no run was made and the assertion is within the limit. -/
theorem runSetup_handled_iff {fl : FixtureList} {tname sname : CStr} {f : Fixture NestedRun}
    (h1 : s.proc.sendFile1.isSome) (hkill : s.proc.killIn = none) (hs : s.proc.Readable)
    (h : Changes (St.asserted x.lvl) (runSetup x (runNested x) fl .nofork tname sname f) s) :
    fails (f.sfun.acts s.now) = true ∧
      ((∃ tr s', runSetup x (runNested x) fl .nofork tname sname f s = .ok (some tr) s' ∧
          tr.rtype = .failure) ↔
        s.proc.fstat ≠ .fork ∧ nestedRuns (f.sfun.acts s.now) = [] ∧
          AssertionFits x.cfg (f.sfun.acts s.now)) := by
  rw [runSetup, if_pos rfl] at h ⊢
  rcases h.of_bind with h | ⟨_, s1, hsend, -, h⟩
  · exact absurd h (not_changes_sendMsg _)
  obtain ⟨hf1, -, hnow1⟩ := sendMsg_control hsend
  have hfile1 : s1.proc.sendFile1.isSome := sendMsg_file1 h1 hsend
  have hfile : (entered x (.fixture fl f.sfun.addr) s1).proc.sendFile1.isSome := hfile1
  have htalk1 : s1.proc.Talking :=
    Proc.Readable.talking hs (by decide : CkResultCtx.setup ≠ .invalid) hsend
  have htalk : (entered x (.fixture fl f.sfun.addr) s1).proc.Talking := htalk1
  -- the assertion is one of the function
  have hfun : Changes (St.asserted x.lvl) (runFun x (runNested x) (f.sfun.acts s1.now))
      (entered x (.fixture fl f.sfun.addr) s1) := by
    rcases h.of_bind with h | ⟨_, s2, -, -, h⟩
    · rw [Changes, protect_callFixture_apply] at h
      rw [Changes, asserted_entered rfl]
      exact h
    · rcases h.of_bind with h | ⟨tr, s3, -, -, h⟩
      · rcases h.of_bind with h | ⟨_, _, -, -, h⟩
        · exact absurd h not_changes_receive
        · exact absurd rfl h
      · refine absurd ?_ h
        split <;> rfl
  rw [← hnow1, ← hf1]
  refine ⟨fails_of_changes hfun, ?_, ?_⟩
  · rintro ⟨tr, s', hrun, -⟩
    obtain ⟨_, t1, hsend', hrun⟩ := bind_eq_ok.mp hrun
    cases hsend.symm.trans hsend'
    obtain ⟨b, s2, hcall, -⟩ := bind_eq_ok.mp hrun
    rw [protect_callFixture_apply] at hcall
    have hb := (runFun_pending hfile hcall).1
    rw [fails_of_changes hfun] at hb
    rw [hb] at hcall
    have hjumped := runFun_jumped hfile hcall
    exact hjumped
  · rintro ⟨hf, hn, hfits⟩
    have hkill1 : s1.proc.killIn = none := sendMsg_spared hkill hsend
    obtain ⟨s2, hcall⟩ := runFun_jumps hfun hfile hkill1 hf rfl hn hfits
    obtain ⟨tr, hrcv⟩ := (runFun_talking hfile htalk hcall).receive (x := x) tname sname 0 (-1)
    have hp2 := (runFun_pending hfile hcall).2
    rw [fails_of_changes hfun, Bool.or_true] at hp2
    have hp : tr.rtype ≠ .pass := (receiveResultInfoNofork_pending hrcv).2.mpr hp2
    refine ⟨tr, s2.onProc Proc.renew, ?_, (receiveResultInfoNofork_rtype hrcv).2.mpr hp2⟩
    refine (bind_of_ok _ hsend).trans ((bind_of_ok _ hcall).trans ((bind_of_ok _ hrcv).trans ?_))
    rw [if_pos hp]
    rfl

/-- A setup that returns. -/
theorem runSetup_fstat {fl : FixtureList} {tname sname : CStr} {f : Fixture NestedRun}
    {r : Option TestResult} (h1 : s.proc.sendFile1.isSome)
    (h : runSetup x (runNested x) fl .nofork tname sname f s = .ok r s') :
    s'.proc.fstat = (if nestedRuns (f.sfun.acts s.now) = [] then s.proc.fstat else .fork) ∧
      s'.proc.Readable := by
  have hsil := silent_runSetup h
  rw [runSetup, if_pos rfl] at h
  obtain ⟨_, s1, hsend, h⟩ := bind_eq_ok.mp h
  obtain ⟨b, s2, hcall, h⟩ := bind_eq_ok.mp h
  obtain ⟨tr, s3, hrcv, h⟩ := bind_eq_ok.mp h
  obtain ⟨hf1, -, hnow1⟩ := sendMsg_control hsend
  have hfile1 : s1.proc.sendFile1.isSome := sendMsg_file1 h1 hsend
  have hsil2 : Silent x s1 s2 :=
    silent_of_closed (fun _ hP => hP.protect (hP.callFixture fl f)) hcall
  rw [protect_callFixture_apply] at hcall
  have hf2 := runFun_fstat (s := entered x (.fixture fl f.sfun.addr) s1) hfile1 hcall
  have hs' : s' = s2.onProc Proc.renew := by
    have hs3 : s' = s3 := by
      split at h <;> cases h <;> rfl
    obtain ⟨tr', s4, hrcv, h4⟩ := bind_eq_ok.mp hrcv
    cases h4
    rw [hs3]
    rw [receiveTestResult_apply] at hrcv
    split at hrcv
    · cases hrcv
    · cases hrcv
    · cases hrcv
      rfl
  have hrenew := s2.proc.renew_readable (hsil2.file1 hfile1)
  rw [hs']
  refine ⟨hrenew.2.1.trans (hf2.trans ?_), hrenew.1⟩
  show (if nestedRuns (f.sfun.acts s1.now) = [] then s1.proc.fstat else _) = _
  rw [hnow1, hf1]

/-- The runs that are made in setups, until one of them fails. -/
def runsUntilFailure (now : When) : List (Fixture NestedRun) → List NestedRun
  | [] => []
  | f :: fs =>
      nestedRuns (f.sfun.acts now) ++
        if fails (f.sfun.acts now) then [] else runsUntilFailure now fs

/-- The first assertion that fixtures fail. -/
def firstAssertion (now : When) (fs : List (Fixture NestedRun)) : Option Assertion :=
  fs.findSome? fun f => assertionOf (f.sfun.acts now)

theorem firstAssertion_cons (now : When) (f : Fixture NestedRun) (fs : List (Fixture NestedRun)) :
    firstAssertion now (f :: fs) =
      if fails (f.sfun.acts now) then assertionOf (f.sfun.acts now) else firstAssertion now fs := by
  rw [firstAssertion, List.findSome?_cons, fails_eq_isSome]
  cases assertionOf (f.sfun.acts now) <;> rfl

/-- Setups of which one fails an assertion. -/
theorem findSomeM_runSetup_handled_iff {fl : FixtureList} {tname sname : CStr}
    {fs : List (Fixture NestedRun)} (h1 : s.proc.sendFile1.isSome) (hkill : s.proc.killIn = none)
    (hs : s.proc.Readable)
    (h : Changes (St.asserted x.lvl)
      (fs.findSomeM? (runSetup x (runNested x) fl .nofork tname sname)) s) :
    (∃ tr s', fs.findSomeM? (runSetup x (runNested x) fl .nofork tname sname) s = .ok (some tr) s' ∧
        tr.rtype = .failure) ↔
      s.proc.fstat ≠ .fork ∧ runsUntilFailure s.now fs = [] ∧
        ∀ a, firstAssertion s.now fs = some a → a.Fits x.cfg := by
  induction fs generalizing s with
  | nil => exact absurd rfl h
  | cons f fs ih =>
      rw [runsUntilFailure, List.append_eq_nil_iff, firstAssertion_cons]
      rcases h.of_bind with h | ⟨r, s1, hrun, -, h⟩
      · -- the first one fails an assertion
        obtain ⟨hfails, hiff⟩ := runSetup_handled_iff h1 hkill hs h
        rw [if_pos hfails, if_pos hfails, and_iff_left rfl]
        refine Iff.trans ?_ hiff
        constructor
        · rintro ⟨tr, s', hall, hrtype⟩
          obtain ⟨r, s1, hrun, hrest⟩ := bind_eq_ok.mp hall
          have hr := (runSetup_pending h1 hrun).1
          rw [hfails, Bool.or_true] at hr
          obtain ⟨tr1, rfl⟩ := Option.isSome_iff_exists.mp hr
          cases hrest
          exact ⟨tr, s', hrun, hrtype⟩
        · rintro ⟨tr, s', hrun, hrtype⟩
          exact ⟨tr, s', bind_of_ok _ hrun, hrtype⟩
      · -- the first one passes
        cases r with
        | some tr => exact absurd rfl h
        | none =>
            have hsil := silent_runSetup hrun
            have hr := (runSetup_pending h1 hrun).1
            rw [Option.isSome_none, eq_comm, Bool.or_eq_false_iff] at hr
            obtain ⟨hf1, hread1⟩ := runSetup_fstat h1 hrun
            have hnow1 : s1.now = s.now := hsil.now
            have hrest : ∀ tr s', (f :: fs).findSomeM?
                (runSetup x (runNested x) fl .nofork tname sname) s = .ok (some tr) s' ↔
                  fs.findSomeM? (runSetup x (runNested x) fl .nofork tname sname) s1 =
                    .ok (some tr) s' := fun tr s' => by
              rw [List.findSomeM?, bind_of_ok _ hrun]
            simp only [hrest]
            have hkill1 : s1.Spared := Maintains.of_ok (I := St.Spared)
              ((testClosed_spares spares_runNested).runSetup fl .nofork tname sname f) hkill hrun
            rw [ih (hsil.file1 h1) hkill1 hread1 h, hnow1, hf1, hr.2, if_neg Bool.false_ne_true,
              if_neg Bool.false_ne_true]
            by_cases hn : nestedRuns (f.sfun.acts s.now) = []
            · rw [if_pos hn, and_iff_right hn]
            · rw [if_neg hn]
              exact iff_of_false (fun h => h.1 rfl) fun h => hn h.2.1.1

/-- The end of `srunner_run_unchecked_setup`, after the setups. -/
def finishUncheckedSetup (x : Ctx) (tr : Option TestResult) : RunM List SendMsg NestedRun Bool := do
  let fstat ← srunnerForkStatus x
  setForkStatus fstat
  match tr with
  | none => pure true
  | some tr =>
      if tr.rtype ≠ .pass then do
        srunnerAddFailure tr
        pure false
      else pure true

/-- The unchecked setups of a test case of which one fails an assertion. -/
theorem srunnerRunUncheckedSetup_handled_iff {tc : TCaseId} (h1 : s.proc.sendFile1.isSome)
    (hkill : s.proc.killIn = none) (hs : s.proc.Readable)
    (h : Changes (St.asserted x.lvl) (srunnerRunUncheckedSetup x (runNested x) tc) s) :
    (∃ tr s', srunnerRunUncheckedSetup x (runNested x) tc s = .ok false s' ∧
        s'.sr.resultlst = s.sr.resultlst ++ [tr] ∧ tr.rtype = .failure) ↔
      runsUntilFailure s.now (s.heap.lists (.fixtures .unchSflst tc)) = [] ∧
        ∀ a, firstAssertion s.now (s.heap.lists (.fixtures .unchSflst tc)) = some a →
          a.Fits x.cfg := by
  -- with `CK_NOFORK` as the current fork status
  generalize hs0 : s.onProc (fun p => { p with fstat := .nofork }) = s0
  have hunfold : srunnerRunUncheckedSetup x (runNested x) tc s =
      (srunnerRunSetup x (runNested x) .unchSflst tc .nofork (s.heap.tcName tc)
          (.lit "unchecked_setup") >>= finishUncheckedSetup x) s0 := by
    rw [← hs0]
    rfl
  have hlist : ∀ t : St List SendMsg NestedRun, t.heap = s.heap →
      srunnerRunSetup x (runNested x) .unchSflst tc .nofork (s.heap.tcName tc)
        (.lit "unchecked_setup") t = (s.heap.lists (.fixtures .unchSflst tc)).findSomeM?
          (runSetup x (runNested x) .unchSflst .nofork (s.heap.tcName tc)
            (.lit "unchecked_setup")) t := by
    intro t ht
    rw [srunnerRunSetup, if_neg (by decide), ← ht]
    rfl
  have hchanges : Changes (St.asserted x.lvl) ((s.heap.lists (.fixtures .unchSflst tc)).findSomeM?
      (runSetup x (runNested x) .unchSflst .nofork (s.heap.tcName tc)
        (.lit "unchecked_setup"))) s0 := by
    have hv : s.asserted x.lvl = s0.asserted x.lvl := by
      rw [← hs0]
      rfl
    have hheap : s0.heap = s.heap := by
      rw [← hs0]
      rfl
    rw [Changes, hunfold, hv] at h
    rcases Changes.of_bind h with h | ⟨r, s1, -, -, h⟩
    · rw [Changes, hlist s0 hheap] at h
      exact h
    · -- nothing fails an assertion after the setups
      refine absurd ?_ h
      cases r with
      | none => rfl
      | some tr =>
          by_cases hp : tr.rtype ≠ .pass
          · simp only [finishUncheckedSetup, if_pos hp]
            rfl
          · simp only [finishUncheckedSetup, if_neg hp]
            rfl
  have hiff := findSomeM_runSetup_handled_iff (s := s0) (by rw [← hs0]; exact h1)
    (by rw [← hs0]; exact hkill) (by rw [← hs0]; exact hs) hchanges
  have hstart : s0.proc.fstat ≠ .fork ∧ s0.now = s.now ∧ s0.heap = s.heap ∧ s0.sr = s.sr := by
    have hne : ForkStatus.nofork ≠ .fork := by decide
    rw [← hs0]
    exact ⟨hne, rfl, rfl, rfl⟩
  rw [and_iff_right hstart.1, hstart.2.1, ← hlist s0 hstart.2.2.1] at hiff
  rw [← hiff, hunfold]
  constructor
  · rintro ⟨tr, s', hrun, -, hrtype⟩
    obtain ⟨r, s1, hset, hrest⟩ := bind_eq_ok.mp hrun
    cases r with
    | none => cases hrest
    | some tr' => exact ⟨tr', s1, hset, (srunnerRunSetup_some hset).1⟩
  · rintro ⟨tr, s1, hset, hrtype⟩
    have hsil : Silent x s0 s1 := silent_of_closed (fun _ hP => hP.srunnerRunSetup _ _ _ _ _) hset
    have hsr : s1.sr = s.sr := (hsil.sr).trans hstart.2.2.2
    have hp : tr.rtype ≠ .pass := by
      rw [hrtype]
      decide
    have hrest : ∃ s', finishUncheckedSetup x (some tr) s1 = .ok false s' ∧
        s'.sr.resultlst = s1.sr.resultlst ++ [tr] := by
      simp only [finishUncheckedSetup, if_pos hp]
      exact ⟨_, rfl, rfl⟩
    obtain ⟨s', hrun, hlst⟩ := hrest
    exact ⟨tr, s', (bind_of_ok _ hset).trans hrun, by rw [hlst, hsr], hrtype⟩

/-! ## test bodies -/

/-- A test that fails an assertion does so in its function. -/
theorem runFun_of_changes_callTest {tfun : TF NestedRun} {i : Int} (h1 : s.proc.sendFile1.isSome)
    (hkill : s.proc.killIn = none)
    (h : Changes (St.asserted x.lvl) (protect x (callTest x (runNested x) tfun i)) s) :
    ∃ s1, protect x (callTest x (runNested x) tfun i) s =
        runFun x (runNested x) (tfun.ttest.fn i s1.now) s1 ∧
      Changes (St.asserted x.lvl) (runFun x (runNested x) (tfun.ttest.fn i s1.now)) s1 ∧
      s1.proc.fstat = s.proc.fstat ∧ s1.proc.errorJmpBuffer = some x.lvl ∧
      s1.proc.sendFile1.isSome ∧ s1.now = s.now ∧ s1.proc.killIn = none := by
  -- the two messages of `tcase_fn_start`
  rcases h.of_bind with h | ⟨_, s1, hjmp, -, h⟩
  · exact absurd rfl h
  rcases h.of_bind with h | ⟨_, s2, hctx, -, h⟩
  · exact absurd h (not_changes_sendMsg _)
  rcases h.of_bind with h | ⟨_, s3, hloc, -, h⟩
  · exact absurd h (not_changes_sendMsg _)
  have hs1 : s1.proc.fstat = s.proc.fstat ∧ s1.proc.errorJmpBuffer = some x.lvl ∧
      s1.proc.sendFile1.isSome ∧ s1.now = s.now ∧ s1.proc.killIn = none := by
    cases hjmp
    exact ⟨rfl, rfl, h1, rfl, hkill⟩
  obtain ⟨hf1, hj1, hfile1, hnow1, hkill1⟩ := hs1
  obtain ⟨hf2, hj2, hnow2⟩ := sendMsg_control hctx
  obtain ⟨hf3, hj3, hnow3⟩ := sendMsg_control hloc
  have hfile3 : s3.proc.sendFile1.isSome := sendMsg_file1 (sendMsg_file1 hfile1 hctx) hloc
  have hkill3 : s3.proc.killIn = none := sendMsg_spared (sendMsg_spared hkill1 hctx) hloc
  have hobs : (s3.onProc (Proc.observe x.lvl (.body tfun.ttest.name i))).asserted x.lvl =
      s3.asserted x.lvl := by
    show asserts x.lvl (s3.proc.hist ++ [(x.lvl, _)]) = asserts x.lvl s3.proc.hist
    rw [asserts, shown_append]
    exact List.append_nil _
  -- the function itself
  rcases h.of_bind with h | ⟨_, s4, hbody, -, h⟩
  · exact absurd hobs h
  rcases h.of_bind with h | ⟨now, s5, hread, -, h⟩
  · exact absurd rfl h
  cases hread
  cases hbody
  exact ⟨_, (bind_of_ok _ hjmp).trans ((bind_of_ok _ hctx).trans (bind_of_ok _ hloc)), h,
    hf3.trans (hf2.trans hf1), hj3.trans (hj2.trans hj1), hfile3, hnow3.trans (hnow2.trans hnow1),
    hkill3⟩

/-- A test that fails an assertion. -/
theorem protect_callTest_handled_iff {tfun : TF NestedRun} {i : Int} (h1 : s.proc.sendFile1.isSome)
    (hkill : s.proc.killIn = none)
    (h : Changes (St.asserted x.lvl) (protect x (callTest x (runNested x) tfun i)) s) :
    (∃ s', protect x (callTest x (runNested x) tfun i) s = .ok true s') ↔
      s.proc.fstat ≠ .fork ∧ nestedRuns (tfun.ttest.fn i s.now) = [] ∧
        AssertionFits x.cfg (tfun.ttest.fn i s.now) := by
  obtain ⟨s1, hcall, hch, hf1, hj1, hfile1, hnow1, hkill1⟩ := runFun_of_changes_callTest h1 hkill h
  rw [hcall, ← hf1, ← hnow1]
  constructor
  · rintro ⟨s', hs'⟩
    exact runFun_jumped hfile1 hs'
  · rintro ⟨hf, hn, hfits⟩
    exact runFun_jumps hch hfile1 hkill1 hf hj1 hn hfits

end

/-- A run of a suite without test cases. -/
def Sample.emptyRun : NestedRun := ⟨Sample.heap [], srunnerCreate, Sample.env, Sample.args⟩

/-- A test that makes such a run and then fails an assertion, and a test case
after it. -/
def Sample.nesting : List (Sample.Case NestedRun) :=
  [⟨fun _ => [], [Sample.test [.call Sample.emptyRun, Sample.fail]], none⟩,
    ⟨fun _ => [], [Sample.test []], none⟩]

end LibCheck
