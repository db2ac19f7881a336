import LibCheck.Objects

/-!
# LibCheck.Msg

Sending and receiving messages (`check_msg.c`): the two message files, of
which the second one serves a run inside a run, the senders, and the receiver
that reads the current file to its end, replaces it by an empty one and turns
what it read into a `TestResult`.
-/

namespace LibCheck

open Prog

variable {L : Type → Type} {β ν : Type}

/-! ## the message files -/

namespace Proc

/-- `get_pipe`, without its error. -/
def getPipe (p : Proc β) : Option (Pipe β) :=
  match p.sendFile2 with
  | some f => some f
  | none => p.sendFile1

/-- Append to the file that `get_pipe` returns. -/
def fwrite (data : List β) (p : Proc β) : Proc β :=
  match p.sendFile2 with
  | some f => { p with sendFile2 := some { f with content := f.content ++ data } }
  | none => { p with sendFile1 := p.sendFile1.map fun f => { f with content := f.content ++ data } }

/-- `send_file1 = open_tmp_file(..)`. -/
def openFile1 (p : Proc β) : Proc β :=
  { p with sendFile1 := some ⟨p.nextFile, []⟩, nextFile := p.nextFile + 1 }

/-- `send_file2 = open_tmp_file(..)`. -/
def openFile2 (p : Proc β) : Proc β :=
  { p with sendFile2 := some ⟨p.nextFile, []⟩, nextFile := p.nextFile + 1 }

end Proc

/-- `eprintf`: the process ends with `exit(2)`. -/
def eprintf (_ : EPrintf) : RunM L β ν α := throw (.exited 2)

/-- `setup_pipe`. -/
def setupPipe : RunM L β ν Unit := do
  if ← read fun s => s.proc.sendFile1.isNone then
    update (St.onProc Proc.openFile1)
  else if ← read fun s => s.proc.sendFile2.isNone then
    update (St.onProc Proc.openFile2)
  else
    eprintf .oneNesting

/-- `teardown_pipe`. -/
def teardownPipe : RunM L β ν Unit := do
  if ← read fun s => s.proc.sendFile2.isSome then
    update (St.onProc fun p => { p with sendFile2 := none })
  else if ← read fun s => s.proc.sendFile1.isSome then
    update (St.onProc fun p => { p with sendFile1 := none })
  else
    eprintf .noMessaging

/-- `setup_messaging`. -/
def setupMessaging : RunM L β ν Unit := setupPipe

/-- `teardown_messaging`. -/
def teardownMessaging : RunM L β ν Unit := teardownPipe

/-! ## sending -/

/-- A process that is going to be killed from outside is killed here, if it
has sent all the messages it was granted. -/
def killPoint : RunM L β ν Unit := do
  match ← read fun s => s.proc.killIn with
  | none => pure ()
  | some (0, sig) => throw (.signaled sig)
  | some (n + 1, sig) => update (St.onProc fun p => { p with killIn := some (n, sig) })

/-- `ppack(get_pipe(), ..)`. -/
def sendMsg [Wire β] (x : Ctx) (m : SendMsg) : RunM L β ν Unit := do
  killPoint
  if ← read fun s => s.proc.getPipe.isNone then eprintf .noPipe
  else match Wire.ppack x.cfg m with
    | .error e => eprintf e
    | .ok data => update (St.onProc (Proc.fwrite (β := β) data))

/-- `send_failure_info`. -/
def sendFailureInfo [Wire β] (x : Ctx) (msg : CStr) : RunM L β ν Unit :=
  sendMsg x (.fail (some msg))

/-- `send_duration_info`. -/
def sendDurationInfo [Wire β] (x : Ctx) (duration : Int32) : RunM L β ν Unit :=
  sendMsg x (.duration duration)

/-- `send_loc_info`. -/
def sendLocInfo [Wire β] (x : Ctx) (loc : SrcLoc) : RunM L β ν Unit :=
  sendMsg x (.loc (some loc.file) loc.line)

/-- `send_ctx_info`. -/
def sendCtxInfo [Wire β] (x : Ctx) (ctx : CkResultCtx) : RunM L β ν Unit :=
  sendMsg x (.ctx ctx)

/-! ## receiving -/

/-- `tr_set_loc_by_ctx`.  That the fields of `rmsg` are cleared is not
modelled: the `RcvMsg` is freed right after. -/
def trSetLocByCtx (tr : TestResult) (ctx : CkResultCtx) (rmsg : RcvMsg) : TestResult :=
  if ctx = .test then { tr with file := rmsg.testFile, line := rmsg.testLine }
  else { tr with file := rmsg.fixtureFile, line := rmsg.fixtureLine }

/-- `construct_test_result`. -/
def constructTestResult (rmsg : RcvMsg) (waserror : Bool) : TestResult :=
  let tr := trCreate
  if rmsg.msg ≠ none ∨ waserror then
    let ctx := if rmsg.failctx ≠ .invalid then rmsg.failctx else rmsg.lastctx
    trSetLocByCtx { tr with ctx := ctx, msg := rmsg.msg } ctx rmsg
  else if rmsg.lastctx = .setup then
    trSetLocByCtx { tr with ctx := .setup, msg := none } .setup rmsg
  else
    trSetLocByCtx { tr with ctx := .test, msg := none, duration := rmsg.duration } .test rmsg

/-- What `receive_test_result` goes on with after `punpack`: the process ends
when the stream was refused or held no context. -/
def rcvOutcome : Option (Except Fault (Option RcvMsg)) → Except Stop RcvMsg
  | none => .error .diverged
  | some (.error .overrun) => .error .undefined
  | some (.error (.eprintf _)) => .error (.exited 2)
  | some (.ok none) => .error (.exited 2)
  | some (.ok (some rmsg)) => .ok rmsg

/-- `receive_test_result`. -/
def receiveTestResult [Wire β] (x : Ctx) (waserror : Bool) : RunM L β ν TestResult := do
  match ← read fun s => s.proc.getPipe.map fun f => rcvOutcome (Wire.punpack x.cfg f.content) with
  | none => eprintf .noPipe
  | some (.error e) => throw e
  | some (.ok rmsg) => do
      teardownPipe
      setupPipe
      pure (constructTestResult rmsg waserror)

/-! ## what sending and receiving do -/

/-- One message closer to being killed. -/
def Proc.granted (p : Proc β) : Proc β :=
  match p.killIn with
  | some (n + 1, sig) => { p with killIn := some (n, sig) }
  | _ => p

theorem Proc.granted_eq (p : Proc β) : p.granted = { p with killIn := p.granted.killIn } := by
  simp only [granted]
  split <;> rfl

theorem Proc.fwrite_eq (data : List β) (p : Proc β) :
    p.fwrite data =
      { p with
        sendFile1 := (p.fwrite data).sendFile1
        sendFile2 := (p.fwrite data).sendFile2 } := by
  simp only [fwrite]
  split <;> rfl

/-- The process after its current message file was replaced by an empty
one. -/
def Proc.renew (p : Proc β) : Proc β :=
  match p.sendFile1, p.sendFile2 with
  | some _, some _ => { p with sendFile2 := none }.openFile2
  | none, some _ => { p with sendFile2 := none }.openFile1
  | _, none => { p with sendFile1 := none }.openFile1

theorem Proc.alarmReceived_renew (p : Proc β) : p.renew.alarmReceived = p.alarmReceived := by
  cases h1 : p.sendFile1 <;> cases h2 : p.sendFile2 <;> simp only [renew, h1, h2] <;> rfl

/-- Sending a message, by cases: the process is killed, ends in an `eprintf` (with a file only
where `ppack` refuses the message), or the message is appended to the current file. -/
theorem sendMsg_apply [Wire β] (x : Ctx) (m : SendMsg) (s : St L β ν) :
    (∃ n sig, s.proc.killIn = some (n, sig) ∧ sendMsg x m s = .error (.signaled sig) s) ∨
      ((s.proc.getPipe.isSome → ∃ e, (Wire.ppack x.cfg m : Except EPrintf (List β)) = .error e) ∧
        sendMsg x m s = .error (.exited 2) (s.onProc Proc.granted)) ∨
      ∃ data, Wire.ppack x.cfg m = .ok data ∧ s.proc.getPipe.isSome ∧
        sendMsg x m s = .ok () (s.onProc fun p => p.granted.fwrite data) := by
  have hrest : ∀ s' : St L β ν, s' = s.onProc Proc.granted →
      killPoint s = (.ok () s' : EStateM.Result _ _ _) →
      ((s.proc.getPipe.isSome → ∃ e, (Wire.ppack x.cfg m : Except EPrintf (List β)) = .error e) ∧
          sendMsg x m s = .error (.exited 2) (s.onProc Proc.granted)) ∨
        ∃ data, Wire.ppack x.cfg m = .ok data ∧ s.proc.getPipe.isSome ∧
          sendMsg x m s = .ok () (s.onProc fun p => p.granted.fwrite data) := by
    intro s' hs' hkill
    have hpipe : s'.proc.getPipe = s.proc.getPipe := by
      rw [hs']
      simp only [St.onProc, Proc.granted]
      split <;> rfl
    have hsend : sendMsg x m s = (do
        if ← read fun s => s.proc.getPipe.isNone then eprintf .noPipe
        else match Wire.ppack x.cfg m with
          | .error e => eprintf e
          | .ok data => update (St.onProc (Proc.fwrite (β := β) data)) : RunM L β ν Unit) s' :=
      bind_of_ok _ hkill
    rw [hsend, bind_apply, read_apply]
    simp only [hpipe]
    cases hp : s.proc.getPipe with
    | none =>
        refine .inl ⟨fun h => absurd h Bool.false_ne_true, ?_⟩
        rw [hs']
        rfl
    | some f =>
        cases hm : (Wire.ppack x.cfg m : Except EPrintf (List β)) with
        | error e =>
            refine .inl ⟨fun _ => ⟨e, rfl⟩, ?_⟩
            rw [hs']
            rfl
        | ok data =>
            right
            refine ⟨data, rfl, rfl, ?_⟩
            rw [hs']
            rfl
  match hk : s.proc.killIn with
  | none =>
      right
      refine hrest s ?_ ?_
      · simp only [St.onProc, Proc.granted, hk]
      · simp only [killPoint, bind_apply, read_apply, hk, pure_apply]
  | some (0, sig) =>
      left
      refine ⟨0, sig, rfl, ?_⟩
      have hkill : killPoint s = (.error (.signaled sig) s : EStateM.Result _ _ Unit) := by
        simp only [killPoint, bind_apply, read_apply, hk, throw_apply]
      exact bind_of_error _ hkill
  | some (n + 1, sig) =>
      right
      refine hrest (s.onProc fun p => { p with killIn := some (n, sig) }) ?_ ?_
      · simp only [St.onProc, Proc.granted, hk]
      · simp only [killPoint, bind_apply, read_apply, hk, update_apply]

/-- Receiving, by cases: the process ends where it is, or the current file is
read to its end and replaced. -/
theorem receiveTestResult_apply [Wire β] (x : Ctx) (waserror : Bool) (s : St L β ν) :
    receiveTestResult x waserror s =
      match s.proc.getPipe.map fun f => rcvOutcome (Wire.punpack x.cfg f.content) with
      | none => .error (.exited 2) s
      | some (.error e) => .error e s
      | some (.ok rmsg) => .ok (constructTestResult rmsg waserror) (s.onProc Proc.renew) := by
  rw [receiveTestResult, bind_apply, read_apply]
  cases hr : s.proc.getPipe.map fun f => rcvOutcome (Wire.punpack x.cfg f.content) with
  | none => rfl
  | some r =>
      cases r with
      | error e => rfl
      | ok rmsg =>
          cases h1 : s.proc.sendFile1 <;> cases h2 : s.proc.sendFile2
          · simp only [Proc.getPipe, h1, h2, Option.map_none, reduceCtorEq] at hr
          all_goals
            simp [teardownPipe, setupPipe, bind_apply, Proc.renew, St.onProc, h1, h2]
            rfl

/-- What a receiver of whole messages goes on with: it accepts them if there is a
context among them and no negative field. -/
theorem rcvOutcome_messages (cfg : Config) (ms : List SendMsg) :
    rcvOutcome (Wire.punpack cfg ms) =
      if (∀ m ∈ ms, m.NonNeg) ∧ (received rcvmsgCreate ms).lastctx ≠ .invalid then
        .ok (received rcvmsgCreate ms)
      else .error (.exited 2) := by
  show rcvOutcome (if ∀ m ∈ ms, m.NonNeg then _ else _) = _
  by_cases hnn : ∀ m ∈ ms, m.NonNeg
  · by_cases hctx : (received rcvmsgCreate ms).lastctx = .invalid
    · rw [if_pos hnn, rcvmsgOrNull, if_pos hctx, if_neg fun h => h.2 hctx]
      rfl
    · rw [if_pos hnn, rcvmsgOrNull, if_neg hctx, if_pos ⟨hnn, hctx⟩]
      rfl
  · rw [if_neg hnn, if_neg fun h => hnn h.1]
    rfl

/-- Receiving whole messages. -/
theorem receiveTestResult_messages {s : St L SendMsg ν} {f : Pipe SendMsg} (x : Ctx)
    (hp : s.proc.getPipe = some f) (w : Bool) :
    receiveTestResult x w s =
      if (∀ m ∈ f.content, m.NonNeg) ∧ (received rcvmsgCreate f.content).lastctx ≠ .invalid then
        .ok (constructTestResult (received rcvmsgCreate f.content) w) (s.onProc Proc.renew)
      else .error (.exited 2) s := by
  rw [receiveTestResult_apply, hp, Option.map_some, rcvOutcome_messages]
  by_cases h : (∀ m ∈ f.content, m.NonNeg) ∧ (received rcvmsgCreate f.content).lastctx ≠ .invalid
  · simp only [if_pos h]
  · simp only [if_neg h]

end LibCheck
