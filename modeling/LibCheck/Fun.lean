import LibCheck.Msg

/-!
# LibCheck.Fun

Running user code and judging it: the calls that user functions make into
`check.c`, the fixtures and tests of `check_run.c` in both modes, and the
verdicts `set_nofork_info` and `set_fork_info`.

A user function is left in one of two ways: it returns, or `longjmp` takes
control to the last `setjmp`.  `runFun` returns `true` for a jump.  With
`CK_FORK` as the current fork status a failing assertion ends the process
instead.  A forked test runs on a copy of the state, of which the parent gets
back what the child wrote to the shared message file.
-/

namespace LibCheck

open Prog

/-! ## verdicts -/

/-- The part of a wait status that is used: a process has exited or was killed
by a signal. -/
inductive WaitStatus where
  | exited (code : UInt8)
  | signaled (sig : Signal)
deriving DecidableEq, Repr

/-- `pass_msg`. -/
def passMsg : CStr := .lit "Passed"

/-- `MSG_LEN`. -/
def msgLen : Nat := 100

/-- `signal_msg`. -/
def signalMsg (cfg : Config) (alarmReceived : Bool) (signal : Int) : CStr :=
  .truncate msgLen <|
    if alarmReceived then (CStr.lit "Test timeout expired").bytes
    else (CStr.lit "Received signal ").bytes ++ fmtInt signal ++ (CStr.lit " (").bytes ++
      (cfg.strsignal signal).bytes ++ (CStr.lit ")").bytes

/-- `signal_error_msg`. -/
def signalErrorMsg (cfg : Config) (alarmReceived : Bool) (signalReceived signalExpected : Int) :
    CStr :=
  .truncate msgLen <|
    if alarmReceived then
      (CStr.lit "Test timeout expired, expected signal ").bytes ++ fmtInt signalExpected ++
        (CStr.lit " (").bytes ++ (cfg.strsignal signalExpected).bytes ++ (CStr.lit ")").bytes
    else
      (CStr.lit "Received signal ").bytes ++ fmtInt signalReceived ++ (CStr.lit " (").bytes ++
        (cfg.strsignal signalReceived).bytes ++ (CStr.lit "), expected ").bytes ++
        fmtInt signalExpected ++ (CStr.lit " (").bytes ++
        (cfg.strsignal signalExpected).bytes ++ (CStr.lit ")").bytes

/-- `exit_msg`. -/
def exitMsg (exitval : Int8) : CStr :=
  .truncate msgLen ((CStr.lit "Early exit with return value ").bytes ++ fmtInt exitval.toInt)

/-- `waserror`. -/
def waserror (status : WaitStatus) (signalExpected : Int) : Bool :=
  match status with
  | .signaled sig => (sig.1 : Int) ≠ signalExpected
  | .exited code => code ≠ 0

/-- `set_fork_info`. -/
def setForkInfo (cfg : Config) (alarmReceived : Bool) (tr : TestResult) (status : WaitStatus)
    (signalExpected : Int) (allowedExitValue : Int8) : TestResult :=
  match status with
  | .signaled sig =>
      if signalExpected = sig.1 then
        if alarmReceived then
          -- got alarm instead of signal
          { tr with rtype := .error
                    msg := some (signalErrorMsg cfg alarmReceived sig.1 signalExpected) }
        else { tr with rtype := .pass, msg := some passMsg }
      else if signalExpected ≠ 0 then
        { tr with rtype := .error
                  msg := some (signalErrorMsg cfg alarmReceived sig.1 signalExpected) }
      else { tr with rtype := .error, msg := some (signalMsg cfg alarmReceived sig.1) }
  | .exited code =>
      let exitStatus : Int8 := code.toInt8
      if signalExpected = 0 then
        if exitStatus = allowedExitValue then { tr with rtype := .pass, msg := some passMsg }
        else if tr.msg = none then
          -- early exit
          { tr with rtype := .error, msg := some (exitMsg exitStatus) }
        else { tr with rtype := .failure }
      else
        -- a signal was expected and none raised
        { tr with rtype := .failure, msg := some (exitMsg exitStatus) }

/-- `set_nofork_info`. -/
def setNoforkInfo (tr : TestResult) : TestResult :=
  if tr.msg = none then { tr with rtype := .pass, msg := some passMsg }
  else { tr with rtype := .failure }

/-! ## control flow -/

section

variable {L : Type → Type} {β ν : Type} (x : Ctx)

/-- `set_fork_status`. -/
def setForkStatus (fstat : ForkStatus) : RunM L β ν Unit :=
  update (St.onProc fun p => { p with fstat := fstat })

/-- The fork status of a runner, with `CK_FORK_GETENV` looked up. -/
def forkStatusOf (env : Env) : ForkStatus → ForkStatus
  | .getenv =>
      match env.getenv .ckFork with
      | none => .fork
      | some v => if v = .lit "no" then .nofork else .fork
  | fstat => fstat

/-- `srunner_fork_status`. -/
def srunnerForkStatus : RunM L β ν ForkStatus := read fun s => forkStatusOf x.env s.sr.fstat

/-- `if(0 == setjmp(error_jmp_buffer)) f();` — whether `f` was left by a
jump. -/
def protect (f : RunM L β ν Bool) : RunM L β ν Bool := do
  update (St.onProc fun p => { p with errorJmpBuffer := some x.lvl })
  f

/-- A call outside of any `setjmp`: a jump from it goes to a dead frame. -/
def unprotected (f : RunM L β ν Bool) : RunM L β ν Unit := do
  if ← f then throw .undefined else pure ()

/-- What a file of the parent holds after the child ran: what the child wrote,
if it still had the same file open. -/
def sharedFile : Option (Pipe β) → Option (Pipe β) → Option (Pipe β)
  | some f, some g => if g.id = f.id then some { f with content := g.content } else some f
  | own, _ => own

/-- The parent after the child ended: its own memory, the shared files, and
the history of both. -/
def Proc.join (p child : Proc β) : Proc β :=
  { p with
    sendFile1 := sharedFile p.sendFile1 child.sendFile1
    sendFile2 := sharedFile p.sendFile2 child.sendFile2
    hist := child.hist }

/-- The state of the parent after the child ended. -/
def joinChild (parent child : St L β ν) : St L β ν :=
  parent.onProc fun p => p.join child.proc

/-- `fork` and `waitpid`: the child runs `p` on a copy of the state. -/
def forkChild (p : RunM L β ν Unit) : RunM L β ν WaitStatus := fun s =>
  match p (s.onProc fun q => { q with killIn := x.env.kill s.now }) with
  | .ok _ c => .ok (.exited 0) (joinChild s c)
  | .error (.exited code) c => .ok (.exited code) (joinChild s c)
  | .error (.signaled sig) c => .ok (.signaled sig) (joinChild s c)
  | .error e c => .error e (joinChild s c)

/-- A loop over a list of the heap. -/
def forList [Lists L] (r : LRef) (body : r.Elem ν → RunM L β ν (Option α)) :
    RunM L β ν (Option α) :=
  Lists.forEach (fun s => s.heap.lists r) (St.setList r) x.env.slack body

/-- The `int` duration of the test at hand. -/
def testDuration (now : When) : Int32 :=
  Int32.ofInt (diffInUsec (x.env.clock now).1 (x.env.clock now).2)

end

/-! ## user functions -/

/-- The text `_ck_assert_failed` sends: the formatted message, cut off at
`BUFSIZ`, or else the expression. -/
def failureText (cfg : Config) (expr : CStr) : Option CStr → CStr
  | some msg => .truncate cfg.bufsiz msg.bytes
  | none => expr

/-- The status of `exit(status)` that the parent sees. -/
def exitCode (status : Int) : UInt8 := UInt8.ofNat (status % 256).toNat

section

variable {L : Type → Type} {β ν : Type} [Wire β]

/-- `_mark_point`. -/
def markPoint (x : Ctx) (loc : SrcLoc) : RunM L β ν Unit := sendLocInfo x loc

/-- `_ck_assert_failed`.  A normal return stands for the jump to the last
`setjmp` of this run; if the last `setjmp` was that of another run, the jump
is not modelled. -/
def ckAssertFailed (x : Ctx) (loc : SrcLoc) (expr : CStr) (msg : Option CStr) :
    RunM L β ν Unit := do
  update (St.onProc (Proc.observe x.lvl (.assertFailed ⟨loc, expr, msg⟩)))
  sendLocInfo x loc
  sendFailureInfo x (failureText x.cfg expr msg)
  if ← read fun s => decide (s.proc.fstat = .fork) then throw (.exited 1)
  else if ← read fun s => decide (s.proc.errorJmpBuffer = some x.lvl) then pure ()
  else throw .undefined

variable (x : Ctx) (call : ν → RunM L β ν Unit)

/-- Run the steps of a user function; `true` if it was left by `longjmp`. -/
def runFun : List (Act ν) → RunM L β ν Bool
  | [] => pure false
  | .markPoint loc :: acts => do
      markPoint x loc
      runFun acts
  | .assertFailed loc expr msg :: _ => do
      ckAssertFailed x loc expr msg
      pure true
  | .exit status :: _ => do
      killPoint
      throw (.exited (exitCode status))
  | .raise sig :: _ => throw (.signaled sig)
  | .call c :: acts => do
      call c
      runFun acts

/-- `fixture->fun()`. -/
def callFixture (fl : FixtureList) (f : Fixture ν) : RunM L β ν Bool := do
  update (St.onProc (Proc.observe x.lvl (.fixture fl f.sfun.addr)))
  let now ← read fun s => s.now
  runFun x call (f.sfun.acts now)

/-- `tcase_fn_start` and `tfun->ttest->fn(i)`. -/
def callTest (tfun : TF ν) (i : Int) : RunM L β ν Bool := do
  sendCtxInfo x .test
  sendLocInfo x tfun.ttest.loc
  update (St.onProc (Proc.observe x.lvl (.body tfun.ttest.name i)))
  let now ← read fun s => s.now
  runFun x call (tfun.ttest.fn i now)

/-! ## results -/

/-- `receive_result_info_nofork`. -/
def receiveResultInfoNofork (tcname tname : CStr) (iter : Int) (duration : Int32) :
    RunM L β ν TestResult := do
  let tr ← receiveTestResult x false
  pure (setNoforkInfo
    { tr with tcname := some tcname, tname := some tname, iter := iter, duration := duration })

/-- `receive_result_info_fork`. -/
def receiveResultInfoFork (tcname tname : CStr) (iter : Int) (status : WaitStatus)
    (expectedSignal : Int) (allowedExitValue : Int8) : RunM L β ν TestResult := do
  let tr ← receiveTestResult x (waserror status expectedSignal)
  let alarmReceived ← read fun s => s.proc.alarmReceived
  pure (setForkInfo x.cfg alarmReceived
    { tr with tcname := some tcname, tname := some tname, iter := iter }
    status expectedSignal allowedExitValue)

/-! ## fixtures -/

/-- The body of the loop of `srunner_run_setup`. -/
def runSetup (fl : FixtureList) (forkUsage : ForkStatus) (testName setupName : CStr)
    (f : Fixture ν) : RunM L β ν (Option TestResult) :=
  if forkUsage = .nofork then do
    sendCtxInfo x .setup
    let _ ← protect x (callFixture x call fl f)
    -- stop the setup and return the failure in nofork mode
    let tr ← receiveResultInfoNofork x testName setupName 0 (-1)
    if tr.rtype ≠ .pass then pure (some tr) else pure none
  else do
    unprotected (callFixture x call fl f)
    pure none

/-- The body of the loop of `srunner_run_teardown`. -/
def runTeardown (fl : FixtureList) (forkUsage : ForkStatus) (f : Fixture ν) :
    RunM L β ν (Option Unit) := do
  sendCtxInfo x .teardown
  if forkUsage = .nofork then do
    -- a jump aborts the remaining teardowns
    if ← protect x (callFixture x call fl f) then pure (some ()) else pure none
  else do
    unprotected (callFixture x call fl f)
    pure none

variable [Lists L]

/-- `srunner_run_setup`. -/
def srunnerRunSetup (fl : FixtureList) (tc : TCaseId) (forkUsage : ForkStatus)
    (testName setupName : CStr) : RunM L β ν (Option TestResult) := do
  (if forkUsage = .fork then sendCtxInfo x .setup else pure ())
  forList x (.fixtures fl tc) (runSetup x call fl forkUsage testName setupName)

/-- `tcase_run_checked_setup`. -/
def tcaseRunCheckedSetup (tc : TCaseId) : RunM L β ν (Option TestResult) := do
  let fstat ← srunnerForkStatus x
  let name ← read fun s => s.heap.tcName tc
  srunnerRunSetup x call .chSflst tc fstat name (.lit "checked_setup")

/-- `srunner_run_teardown`. -/
def srunnerRunTeardown (fl : FixtureList) (tc : TCaseId) (forkUsage : ForkStatus) :
    RunM L β ν Unit := do
  let _ ← forList x (.fixtures fl tc) (runTeardown x call fl forkUsage)

/-- `tcase_run_checked_teardown`. -/
def tcaseRunCheckedTeardown (tc : TCaseId) : RunM L β ν Unit :=
  srunnerRunTeardown x call .chTflst tc .nofork

/-- `srunner_run_unchecked_teardown`. -/
def srunnerRunUncheckedTeardown (tc : TCaseId) : RunM L β ν Unit := do
  let fstat ← srunnerForkStatus x
  srunnerRunTeardown x call .unchTflst tc fstat

/-! ## tests -/

/-- `tcase_run_tfun_nofork`. -/
def tcaseRunTfunNofork (tc : TCaseId) (tfun : TF ν) (i : Int) : RunM L β ν TestResult := do
  match ← tcaseRunCheckedSetup x call tc with
  | some tr => pure tr
  | none => do
      let _ ← protect x (callTest x call tfun i)
      tcaseRunCheckedTeardown x call tc
      let name ← read fun s => s.heap.tcName tc
      let now ← read fun s => s.now
      receiveResultInfoNofork x name tfun.ttest.name i (testDuration x now)

/-- The branch `pid == 0` of `tcase_run_tfun_fork`. -/
def testProcess (tc : TCaseId) (tfun : TF ν) (i : Int) : RunM L β ν Unit := do
  let _ ← tcaseRunCheckedSetup x call tc
  unprotected (callTest x call tfun i)
  tcaseRunCheckedTeardown x call tc
  let now ← read fun s => s.now
  sendDurationInfo x (testDuration x now)
  -- exit(EXIT_SUCCESS)
  killPoint

/-- `tcase_run_tfun_fork`. -/
def tcaseRunTfunFork (tc : TCaseId) (tfun : TF ν) (i : Int) : RunM L β ν TestResult := do
  let status ← forkChild x (testProcess x call tc tfun i)
  let now ← read fun s => s.now
  update (St.onProc fun p => { p with alarmReceived := x.env.alarm now })
  let name ← read fun s => s.heap.tcName tc
  receiveResultInfoFork x name tfun.ttest.name i status tfun.signal tfun.allowedExitValue

end

theorem receiveResultInfoFork_of_ok {L : Type → Type} {β ν : Type} [Wire β] {x : Ctx}
    {s s' : St L β ν} {tr : TestResult} {status : WaitStatus} {signal : Int}
    (h : receiveTestResult x (waserror status signal) s = .ok tr s')
    (tcname tname : CStr) (iter : Int)
    (allowed : Int8) :
    receiveResultInfoFork x tcname tname iter status signal allowed s =
      .ok (setForkInfo x.cfg s'.proc.alarmReceived
        { tr with tcname := some tcname, tname := some tname, iter := iter } status signal allowed)
        s' := by
  rw [receiveResultInfoFork, bind_of_ok _ h]
  rfl

end LibCheck
