import LibCheck.Run

/-!
# LibCheck.Frame

What the parts of a run leave alone.  Sending, receiving and user code change
the process and nothing else: not the heap, not the runner, not the occasion
(`St.memory`).  A forked test changes even less of its parent.  What user code
calls may change more; then user functions leave alone the views of the memory
that these calls leave alone.
-/

namespace LibCheck

open Prog

variable {L : Type → Type} {β ν : Type}

/-- Everything but the process. -/
def St.memory (s : St L β ν) : Heap L ν × SRunner L × When := (s.heap, s.sr, s.now)

/-! ## messages -/

/-- `setup_pipe` opens a message file of the process. -/
theorem keeps_setupPipe : Keeps St.memory (setupPipe : RunM L β ν Unit) := by
  refine Keeps.bind (Keeps.read _) fun _ => Keeps.ite (Keeps.update fun _ => rfl) ?_
  refine Keeps.bind (Keeps.read _) fun _ => Keeps.ite (Keeps.update fun _ => rfl) ?_
  exact Keeps.throw _

/-- `teardown_pipe` closes a message file of the process. -/
theorem keeps_teardownPipe : Keeps St.memory (teardownPipe : RunM L β ν Unit) := by
  refine Keeps.bind (Keeps.read _) fun _ => Keeps.ite (Keeps.update fun _ => rfl) ?_
  refine Keeps.bind (Keeps.read _) fun _ => Keeps.ite (Keeps.update fun _ => rfl) ?_
  exact Keeps.throw _

/-- Where a process may be killed, it is killed or goes on. -/
theorem keeps_killPoint : Keeps St.memory (killPoint : RunM L β ν Unit) := by
  refine Keeps.bind (Keeps.read _) fun k => ?_
  match k with
  | none => exact Keeps.pure ()
  | some (0, sig) => exact Keeps.throw _
  | some (n + 1, sig) => exact Keeps.update fun _ => rfl

/-- Sending a message writes to a file of the process. -/
theorem keeps_sendMsg [Wire β] (x : Ctx) (m : SendMsg) :
    Keeps St.memory (sendMsg x m : RunM L β ν Unit) := by
  refine Keeps.bind keeps_killPoint fun _ => Keeps.bind (Keeps.read _) fun _ =>
    Keeps.ite (Keeps.throw _) ?_
  cases (Wire.ppack x.cfg m : Except EPrintf (List β)) with
  | error e => exact Keeps.throw _
  | ok data => exact Keeps.update fun _ => rfl

/-- Receiving reads a file of the process and opens a new one. -/
theorem keeps_receiveTestResult [Wire β] (x : Ctx) (waserror : Bool) :
    Keeps St.memory (receiveTestResult x waserror : RunM L β ν TestResult) := by
  refine Keeps.bind (Keeps.read _) fun r => ?_
  match r with
  | none => exact Keeps.throw _
  | some (.error e) => exact Keeps.throw e
  | some (.ok rmsg) =>
      exact Keeps.bind keeps_teardownPipe fun _ => Keeps.bind keeps_setupPipe fun _ => Keeps.pure _

/-- `receive_result_info_nofork` changes no more than receiving does. -/
theorem keeps_receiveResultInfoNofork [Wire β] (x : Ctx) (tcname tname : CStr) (iter : Int)
    (duration : Int32) :
    Keeps St.memory
      (receiveResultInfoNofork x tcname tname iter duration : RunM L β ν TestResult) :=
  Keeps.bind (keeps_receiveTestResult x false) fun _ => Keeps.pure _

/-- `receive_result_info_fork` changes no more than receiving does. -/
theorem keeps_receiveResultInfoFork [Wire β] (x : Ctx) (tcname tname : CStr) (iter : Int)
    (status : WaitStatus) (signal : Int) (allowed : Int8) :
    Keeps St.memory
      (receiveResultInfoFork x tcname tname iter status signal allowed : RunM L β ν TestResult) :=
  Keeps.bind (keeps_receiveTestResult x _) fun _ => Keeps.bind (Keeps.read _) fun _ => Keeps.pure _

/-! ## user code -/

/-- A failing assertion sends its two messages, and leaves the function or the process. -/
theorem keeps_ckAssertFailed [Wire β] (x : Ctx) (loc : SrcLoc) (expr : CStr)
    (msg : Option CStr) : Keeps St.memory (ckAssertFailed x loc expr msg : RunM L β ν Unit) := by
  have hloc : Keeps St.memory (sendLocInfo x loc : RunM L β ν Unit) := keeps_sendMsg x _
  have hfail : Keeps St.memory
      (sendFailureInfo x (failureText x.cfg expr msg) : RunM L β ν Unit) := keeps_sendMsg x _
  refine Keeps.bind (Keeps.update fun _ => rfl) fun _ => Keeps.bind hloc fun _ =>
    Keeps.bind hfail fun _ => ?_
  -- a child process exits
  refine Keeps.bind (Keeps.read _) fun _ => Keeps.ite (Keeps.throw _) ?_
  -- in the same process, the assertion jumps
  exact Keeps.bind (Keeps.read _) fun _ => Keeps.ite (Keeps.pure ()) (Keeps.throw _)

/-- A failing assertion returns (that is, jumps) only without forking and within its own run,
with both messages sent. -/
theorem ckAssertFailed_ok [Wire β] {x : Ctx} {loc : SrcLoc} {expr : CStr} {msg : Option CStr}
    {s s' : St L β ν} (h : ckAssertFailed x loc expr msg s = .ok () s') :
    (∃ s1, sendLocInfo x loc (s.onProc (Proc.observe x.lvl (.assertFailed ⟨loc, expr, msg⟩))) =
        .ok () s1 ∧ sendFailureInfo x (failureText x.cfg expr msg) s1 = .ok () s') ∧
      s'.proc.fstat ≠ .fork ∧ s'.proc.errorJmpBuffer = some x.lvl := by
  rw [ckAssertFailed, update_bind] at h
  obtain ⟨_, s1, hloc, h⟩ := bind_eq_ok.mp h
  obtain ⟨_, s2, hfail, h⟩ := bind_eq_ok.mp h
  rw [read_bind] at h
  split at h
  · cases h
  · next hfork =>
    rw [read_bind] at h
    split at h
    · next hjmp =>
      cases h
      exact ⟨⟨s1, hloc, hfail⟩, by simpa using hfork, by simpa using hjmp⟩
    · cases h

section

variable {γ : Type} {v : St L β ν → γ}
  (hv : ∀ {α : Type} {y : RunM L β ν α}, Keeps St.memory y → Keeps v y)
include hv

/-- A protected function sets the jump buffer before it runs. -/
theorem keeps_protect {x : Ctx} {f : RunM L β ν Bool} (h : Keeps v f) : Keeps v (protect x f) :=
  Keeps.bind (hv (Keeps.update fun _ => rfl)) fun _ => h

omit hv in
/-- An unprotected function is left by no jump. -/
theorem keeps_unprotected {f : RunM L β ν Bool} (h : Keeps v f) : Keeps v (unprotected f) :=
  Keeps.bind h fun _ => Keeps.ite (Keeps.throw _) (Keeps.pure _)

variable [Wire β] {x : Ctx} {call : ν → RunM L β ν Unit} (hcall : ∀ c, Keeps v (call c))
include hcall

/-- A user function keeps what its calls keep: the induction is on its steps. -/
theorem keeps_runFun (acts : List (Act ν)) : Keeps v (runFun x call acts) := by
  induction acts with
  | nil => exact Keeps.pure _
  | cons act acts ih =>
      cases act with
      | markPoint loc => exact Keeps.bind (hv (keeps_sendMsg x _)) fun _ => ih
      | assertFailed loc expr msg =>
          exact Keeps.bind (hv (keeps_ckAssertFailed x loc expr msg)) fun _ => Keeps.pure _
      | exit status => exact Keeps.bind (hv keeps_killPoint) fun _ => Keeps.throw _
      | raise sig => exact Keeps.throw _
      | call c => exact Keeps.bind (hcall c) fun _ => ih

/-- A fixture keeps what its calls keep. -/
theorem keeps_callFixture (fl : FixtureList) (f : Fixture ν) :
    Keeps v (callFixture x call fl f) :=
  Keeps.bind (hv (Keeps.update fun _ => rfl)) fun _ => Keeps.bind (Keeps.read _) fun _ =>
    keeps_runFun hv hcall _

/-- A test function keeps what its calls keep. -/
theorem keeps_callTest (tfun : TF ν) (i : Int) : Keeps v (callTest x call tfun i) := by
  have hctx : Keeps v (sendCtxInfo x .test) := hv (keeps_sendMsg x _)
  have hloc : Keeps v (sendLocInfo x tfun.ttest.loc) := hv (keeps_sendMsg x _)
  refine Keeps.bind hctx fun _ => Keeps.bind hloc fun _ =>
    Keeps.bind (hv (Keeps.update fun _ => rfl)) fun _ => Keeps.bind (Keeps.read _) fun _ => ?_
  exact keeps_runFun hv hcall _

/-- A setup keeps what its calls keep, in both modes. -/
theorem keeps_runSetup (fl : FixtureList) (usage : ForkStatus) (tname sname : CStr)
    (f : Fixture ν) : Keeps v (runSetup x call fl usage tname sname f) := by
  have hfixture : Keeps v (callFixture x call fl f) := keeps_callFixture hv hcall fl f
  refine Keeps.ite ?nofork ?fork
  case nofork =>
    refine Keeps.bind (hv (keeps_sendMsg x _)) fun _ =>
      Keeps.bind (keeps_protect hv hfixture) fun _ => ?_
    exact Keeps.bind (hv (keeps_receiveResultInfoNofork x _ _ _ _)) fun _ =>
      Keeps.ite (Keeps.pure _) (Keeps.pure _)
  case fork => exact Keeps.bind (keeps_unprotected hfixture) fun _ => Keeps.pure _

/-- A teardown keeps what its calls keep, in both modes. -/
theorem keeps_runTeardown (fl : FixtureList) (usage : ForkStatus) (f : Fixture ν) :
    Keeps v (runTeardown x call fl usage f) := by
  have hfixture : Keeps v (callFixture x call fl f) := keeps_callFixture hv hcall fl f
  refine Keeps.bind (hv (keeps_sendMsg x _)) fun _ => Keeps.ite ?nofork ?fork
  case nofork =>
    exact Keeps.bind (keeps_protect hv hfixture) fun _ => Keeps.ite (Keeps.pure _) (Keeps.pure _)
  case fork => exact Keeps.bind (keeps_unprotected hfixture) fun _ => Keeps.pure _

end

/-- The parent of a forked process keeps its memory, whatever the child
does. -/
theorem keeps_forkChild {x : Ctx} (p : RunM L β ν Unit) : Keeps St.memory (forkChild x p) := by
  intro c s hs
  simp only [forkChild]
  cases p (s.onProc fun q => { q with killIn := x.env.kill s.now }) with
  | ok a c => exact hs
  | error e c =>
      cases e with
      | exited code => exact hs
      | signaled sig => exact hs
      | undefined => trivial
      | diverged => trivial
      | brokenOff => trivial

/-- A forked test leaves the memory of the runner alone. -/
theorem keeps_tcaseRunTfunFork [Lists L] [Wire β] {x : Ctx} {call : ν → RunM L β ν Unit}
    (tc : TCaseId) (tfun : TF ν) (i : Int) :
    Keeps St.memory (tcaseRunTfunFork x call tc tfun i) := by
  refine Keeps.bind (keeps_forkChild _) fun _ => Keeps.bind (Keeps.read _) fun _ =>
    Keeps.bind (Keeps.update fun _ => rfl) fun _ => Keeps.bind (Keeps.read _) fun _ => ?_
  exact keeps_receiveResultInfoFork x _ _ _ _ _ _

/-- A nested run shares only the process. -/
theorem keeps_runNested [Lists L] [Wire β] (x : Ctx) (c : NestedRun) :
    Keeps St.memory (runNested x c : RunM L β ν Unit) := by
  intro m s hs
  simp only [runNested]
  cases srunnerRunTagged (x.nested c.env) Empty.elim c.args (c.start s.proc : St L β Empty) with
  | ok a s' => exact hs
  | error e s' => trivial

/-- A loop keeps what each round keeps. -/
theorem keeps_loopFrom {γ : Type} {v : St L β ν → γ} {body : Int → RunM L β ν Unit}
    (h : ∀ i, Keeps v (body i)) (i : Int) (n : Nat) : Keeps v (loopFrom body i n) := by
  induction n generalizing i with
  | zero => exact Keeps.pure ()
  | succ n ih => exact Keeps.bind (h i) fun _ => ih (i + 1)

/-! ## logging -/

section

variable [Lists L]

/-- A logger writes to its file and to the statics of the process. -/
theorem keeps_callLfun (x : Ctx) (lg : Log) (evt : ClEvent) (obj : LogObj) :
    Keeps St.memory (callLfun x lg evt obj : RunM L β ν Unit) := by
  refine Keeps.bind (Keeps.update fun _ => rfl) fun _ => Keeps.bind (Keeps.read _) fun _ =>
    Keeps.bind (Keeps.update fun _ => rfl) fun _ => Keeps.bind (Keeps.read _) fun _ =>
      Keeps.bind (Keeps.read _) fun _ => Keeps.bind (Keeps.read _) fun _ =>
        Keeps.bind (Keeps.read _) fun _ => Keeps.bind (Keeps.update fun _ => rfl) fun _ => ?_
  cases lfunStop lg.lfun obj with
  | some e => exact Keeps.throw e
  | none => exact Keeps.pure ()

end

end LibCheck
