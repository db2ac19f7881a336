import LibCheck.ForkTree
import LibCheck.Isolation

/-!
# LibCheck.CheckFork

Tests that fork processes of their own (`check_fork`, `check_waitpid_and_exit`).

All processes of a test write to the message file of the run.  When the first one
ends, the runner kills the others and looks at the file: at what all of them have
written by then, in whatever order.

* `forked_test_verdict` — the verdict depends on the programs only, not on the
  order in which the processes run.
* `forkChild_testProcess_forking` — a test that forks nothing is run as its program says.
* `forked_test_ends` — such a test always ends, and its result is received.
-/

namespace LibCheck

open Prog
open Script (play burn)
open Seen (announced)
open ForkTree (Forking Process Step Run exists_run_ended)

/-! ## test processes -/

/-- The rest of a test process that has forked `n` processes: what it writes to the
message file, with the processes it forks and waits for. -/
abbrev ForkingTest : Nat → Type := Forking SendMsg WaitStatus

variable {n : Nat}

/-- `check_fork`: the child goes on with the first program, its parent with the
second one. -/
def checkFork (child : ForkingTest 0) (parent : ForkingTest (n + 1)) : ForkingTest n :=
  .fork child parent

/-- `check_waitpid_and_exit`, for one of the children, or for the pid `0`. -/
def checkWaitpidAndExit : Option (Fin n) → ForkingTest n
  | none => .stop (.exited 0)
  | some pid => .wait pid

/-- The status that `check_waitpid_and_exit` makes of the one it waited for. -/
def waitpidStatus (status : WaitStatus) : WaitStatus :=
  .exited (if waserror status 0 then 1 else 0)

/-- `_ck_assert_failed` with `CK_FORK` as the fork status. -/
def forkingAssertFailed (cfg : Config) (loc : SrcLoc) (expr : CStr) (msg : Option CStr) :
    ForkingTest n :=
  .write loc.msg (.write (.fail (some (failureText cfg expr msg))) (.stop (.exited 1)))

/-- `tcase_fn_start`. -/
def forkingFnStart (loc : SrcLoc) (body : ForkingTest n) : ForkingTest n :=
  .write (.ctx .test) (.write loc.msg body)

/-- How a test process ends. -/
def ForkingTest.ends (code : ForkingTest 0) : WaitStatus := code.outcome waitpidStatus Fin.elim0

/-! ## tests that do not fork -/

/-- A process that plays the script and then goes on, when nobody kills it and no
message is refused. -/
def forkingScript : List (Script.Step SendMsg WaitStatus) → ForkingTest n → ForkingTest n
  | [], rest => rest
  | .send m :: ks, rest => .write m (forkingScript ks rest)
  | .pass :: ks, rest => forkingScript ks rest
  | .stop e :: _, _ => .stop e

section

variable {ν : Type} {x : Ctx} {call : ν → RunM List SendMsg ν Unit} {s : St List SendMsg ν}

/-- The process of a test without forks. -/
def TestCode.forking (x : Ctx) (t : TestCode ν) : ForkingTest 0 :=
  forkingScript (t.script x.cfg (testDuration x t.now)) (.stop (.exited 0))

/-- The script of an assertion that fails is that of `_ck_assert_failed` here. -/
theorem forkingScript_assertFailed (cfg : Config) (loc : SrcLoc) (expr : CStr) (msg : Option CStr)
    (acts : List (Act ν)) (rest : ForkingTest n) :
    forkingScript (funScript cfg (.assertFailed loc expr msg :: acts)) rest =
      forkingAssertFailed cfg loc expr msg := rfl

/-- The script of a test begins like `tcase_fn_start` here. -/
theorem forkingScript_fnStart (loc : SrcLoc) (ks : List (Script.Step SendMsg WaitStatus))
    (rest : ForkingTest n) :
    forkingScript (.send (.ctx .test) :: .send loc.msg :: ks) rest =
      forkingFnStart loc (forkingScript ks rest) := rfl

/-- The program of a script writes what is sent of it, and ends in the same way. -/
theorem forkingScript_play {cfg : Config} {ks : List (Script.Step SendMsg WaitStatus)}
    (hfits : ∀ m, .send m ∈ ks → fits cfg m) :
    (forkingScript ks (.stop (.exited 0)) : ForkingTest 0).writes [] =
        (play (rules cfg) none ks).1 ∧
      (forkingScript ks (.stop (.exited 0))).ends = waitStatus (play (rules cfg) none ks).2 := by
  induction ks with
  | nil => exact ⟨rfl, rfl⟩
  | cons step ks ih =>
      obtain ⟨hwrites, hends⟩ := ih fun m hm => hfits m (List.mem_cons_of_mem step hm)
      cases step with
      | send m =>
          have hm : (rules cfg).accepts m = true := hfits m List.mem_cons_self
          simp only [play, burn, hm, if_true]
          exact ⟨congrArg (m :: ·) hwrites, hends⟩
      | pass => exact ⟨hwrites, hends⟩
      | stop e => exact ⟨rfl, rfl⟩

/-- **A test that does not fork** is run as its program says, if nobody kills it and
each of its messages fits. -/
theorem forkChild_testProcess_forking {t : TestCode ν} (hcalls : t.CallFree)
    (hfits : ∀ m, .send m ∈ t.script x.cfg (testDuration x t.now) → fits x.cfg m) {tc : TCaseId}
    (hcode : testCode s.heap tc t.tfun t.iter s.now = t) (hp : s.proc.getPipe.isSome)
    (hf : s.proc.fstat = .fork) (hsr : forkStatusOf x.env s.sr.fstat = .fork)
    (hkill : x.env.kill s.now = none) :
    ∃ c, forkChild x (testProcess x call tc t.tfun t.iter) s = .ok (t.forking x).ends
      (joinChild s c) ∧
      SentTo s.proc ((t.forking x).writes []) c.proc := by
  obtain ⟨hwrites, hends⟩ := forkingScript_play hfits
  have hplays := plays_testProcess call (s := forked x s) hcalls hcode hp hf hsr
  obtain ⟨c, hchild, hsent⟩ := forkChild_of_plays hplays
  rw [hkill] at hchild hsent
  rw [TestCode.forking, hends, hwrites]
  exact ⟨c, hchild, hsent⟩

end

/-- Each message passes the receiver, and no context is `CK_CTX_INVALID`. -/
structure Sendable (cfg : Config) (m : SendMsg) : Prop where
  nonNeg : m.NonNeg
  limited : Limited cfg.maxMsg [m]
  valid : m ≠ .ctx .invalid

/-- The processes of a test send messages that pass the receiver, the first one a
context among them. -/
structure ForkingTest.Sends (cfg : Config) (code : ForkingTest 0) : Prop where
  sendable : ∀ path, ∀ m ∈ code.writes path, Sendable cfg m
  context : ∃ c, .ctx c ∈ code.writes []

/-- The verdict on a test with the allowed exit value `v` that expects no signal, of
which the runner has received `log`. -/
structure ForkingVerdict (code : ForkingTest 0) (v : Int8) (log : List (List Nat × SendMsg))
    (tr : TestResult) : Prop where
  pass : tr.rtype = .pass ↔ ∃ c, code.ends = .exited c ∧ c.toInt8 = v
  failure : tr.rtype = .failure ↔
    (∃ c, code.ends = .exited c ∧ c.toInt8 ≠ v) ∧ ∃ path text, (path, .fail text) ∈ log
  /-- what a process fails that the first one waits for is not lost -/
  awaited : (∃ c, code.ends = .exited c ∧ c.toInt8 ≠ v) →
    (∃ text, .fail text ∈ code.due Fin.elim0) → tr.rtype = .failure
  /-- the text of a failure was sent by one of the processes -/
  text : tr.rtype = .failure →
    ∃ path text, .fail text ∈ code.writes path ∧ tr.msg = some (text.getD .empty)

/-! ## what the runner receives -/

theorem announced_ne_invalid {ms : List Seen.Msg} (h : ∀ m ∈ ms, m ≠ .ctx .invalid)
    (hctx : ∃ c, .ctx c ∈ ms) : announced ms ≠ .invalid := by
  obtain ⟨c, hc⟩ := hctx
  have hne : ms.filterMap Seen.ctx? ≠ [] :=
    List.ne_nil_of_mem (List.mem_filterMap.mpr ⟨_, hc, rfl⟩)
  obtain ⟨m, hm, hlast⟩ := List.mem_filterMap.mp (List.getLast_mem hne)
  rw [announced, List.getLast?_eq_getLast_of_ne_nil hne, Option.getD_some]
  intro hinv
  rw [hinv] at hlast
  cases m with
  | ctx c => exact h _ hm (by simpa [Seen.ctx?] using hlast)
  | _ => cases hlast

theorem failure_ne_none {ms : List SendMsg} :
    Seen.failure (ms.map SendMsg.seen) ≠ none ↔ ∃ text, .fail text ∈ ms := by
  rw [Seen.failure, ← Option.isSome_iff_ne_none, List.findSome?_isSome_iff]
  constructor
  · rintro ⟨m, hm, hfail⟩
    obtain ⟨m, hmem, rfl⟩ := List.mem_map.mp hm
    cases m with
    | fail text => exact ⟨text, hmem⟩
    | _ => cases hfail
  · rintro ⟨text, hmem⟩
    exact ⟨_, List.mem_map_of_mem hmem, rfl⟩

/-- `receive_result_info_fork` on a file of messages. -/
theorem receiveResultInfoFork_messages {ν : Type} {x : Ctx} {s : St CkList UInt8 ν}
    {f : Pipe UInt8} {ms : List SendMsg} (hpipe : s.proc.getPipe = some f)
    (hcontent : f.content = encodeAll ms) (hsend : ∀ m ∈ ms, Sendable x.cfg m)
    (hctx : ∃ c, .ctx c ∈ ms) (tcname tname : CStr) (iter : Int) (status : WaitStatus) (v : Int8) :
    ∃ tr s', receiveResultInfoFork x tcname tname iter status 0 v s =
        .ok (setForkInfo x.cfg s.proc.alarmReceived tr status 0 v) s' ∧
      tr.msg = Seen.failure (ms.map SendMsg.seen) := by
  have hrem := remembers_received ms
  have hlim : Limited x.cfg.maxMsg ms := fun m hm => (hsend m hm).limited m (by simp)
  have hrec : Receivable x.cfg.sz x.cfg.maxMsg ms :=
    ⟨fun m hm => (hsend m hm).nonNeg, (Nat.min_le_left _ _).trans x.cfg.window_le⟩
  have hvalid : announced (ms.map SendMsg.seen) ≠ .invalid := by
    refine announced_ne_invalid (fun m hm => ?_) ?_
    · obtain ⟨m, hmem, rfl⟩ := List.mem_map.mp hm
      have hne := (hsend m hmem).valid
      cases m <;> simp [SendMsg.seen, CheckMsg.map] at hne ⊢
      exact hne
    · obtain ⟨c, hc⟩ := hctx
      exact ⟨c, List.mem_map_of_mem hc⟩
  have hreceive : receiveTestResult x (waserror status 0) s =
      .ok (constructTestResult (received rcvmsgCreate ms) (waserror status 0))
        (s.onProc Proc.renew) := by
    have hpunpack : Wire.punpack x.cfg f.content = some (.ok
        (some (received rcvmsgCreate ms))) := by
      show punpack x.cfg.sz x.cfg.maxMsg x.cfg.mallocd f.content = _
      rw [hcontent, punpack_of_receivable _ hlim hrec, rcvmsgOrNull, if_neg (by rwa [hrem.lastctx])]
    rw [receiveTestResult_apply, hpipe, Option.map_some, hpunpack]
    rfl
  have halarm : (s.onProc Proc.renew).proc.alarmReceived = s.proc.alarmReceived :=
    Proc.alarmReceived_renew s.proc
  refine ⟨_, _, (receiveResultInfoFork_of_ok hreceive tcname tname iter v).trans
    (by rw [halarm]), ?_⟩
  rw [← hrem.msg]
  exact constructTestResult_msg ..

/-- The text that is reported was sent. -/
theorem failure_eq_some {ms : List SendMsg} {m : CStr}
    (h : Seen.failure (ms.map SendMsg.seen) = some m) :
    ∃ text, .fail text ∈ ms ∧ m = text.getD .empty := by
  obtain ⟨m', hm', hfail⟩ := List.exists_of_findSome?_eq_some h
  obtain ⟨m', hmem, rfl⟩ := List.mem_map.mp hm'
  cases m' with
  | fail text => exact ⟨text, hmem, (Option.some.inj hfail).symm⟩
  | _ => cases hfail

/-! ## verdicts -/

theorem zero_ne_signal (sig : Signal) : (0 : Int) ≠ sig.1 := by
  have := sig.2
  omega

theorem setForkInfo_pass_iff (cfg : Config) (alarm : Bool) (tr : TestResult) (status : WaitStatus)
    (v : Int8) :
    (setForkInfo cfg alarm tr status 0 v).rtype = .pass ↔
      ∃ c, status = .exited c ∧ c.toInt8 = v := by
  cases status with
  | signaled sig => simp [setForkInfo_signaled, zero_ne_signal]
  | exited c =>
      rw [setForkInfo_exited, if_pos rfl]
      by_cases hc : c.toInt8 = v <;> cases tr.msg <;> simp [hc]

theorem setForkInfo_failure_iff (cfg : Config) (alarm : Bool) (tr : TestResult)
    (status : WaitStatus)
    (v : Int8) :
    (setForkInfo cfg alarm tr status 0 v).rtype = .failure ↔
      (∃ c, status = .exited c ∧ c.toInt8 ≠ v) ∧ tr.msg ≠ none := by
  cases status with
  | signaled sig => simp [setForkInfo_signaled, zero_ne_signal]
  | exited c =>
      rw [setForkInfo_exited, if_pos rfl]
      by_cases hc : c.toInt8 = v <;> cases tr.msg <;> simp [hc]

theorem setForkInfo_failure_msg {cfg : Config} {alarm : Bool} {tr : TestResult}
    {status : WaitStatus}
    {v : Int8} (h : (setForkInfo cfg alarm tr status 0 v).rtype = .failure) :
    (setForkInfo cfg alarm tr status 0 v).msg = tr.msg := by
  cases status with
  | signaled sig => simp [setForkInfo_signaled, zero_ne_signal] at h
  | exited c =>
      simp only [setForkInfo, if_true] at h ⊢
      by_cases hc : c.toInt8 = v
      · simp [hc] at h
      · cases hmsg : tr.msg <;> simp_all

/-- A process that the first one does not wait for may fail unseen (`test_fork2_fail`
of the tests fails because it waits for the second child, not for the first one). -/
example (cfg : Config) (loc : SrcLoc) :
    let fail : ForkingTest 0 := forkingAssertFailed cfg loc (.lit "Failed")
      (some (.lit "Expected fail"))
    (checkFork (checkWaitpidAndExit none) (checkFork fail (checkWaitpidAndExit (some 1)))).ends =
        .exited 1 ∧
      (checkFork fail (checkFork (checkWaitpidAndExit none) (checkWaitpidAndExit (some 1)))).ends =
        .exited 0 :=
  ⟨rfl, rfl⟩

/-- A test that forks goes on as long as its first process has not ended, but not for
ever; so it ends as its programs say. -/
theorem forked_test_ends (code : ForkingTest 0) :
    (∀ log q, Run waitpidStatus (.start code) log q →
      ∃ log' r, Run waitpidStatus q log' r ∧ r.status = some code.ends) ∧
    ¬ ∃ f : Nat → Process SendMsg WaitStatus, f 0 = .start code ∧
      ∀ k, ∃ out, Step waitpidStatus (f k) out (f (k + 1)) := by
  constructor
  · intro log q hrun
    obtain ⟨log', r, hrest, hr⟩ := exists_run_ended waitpidStatus q
    rw [hrun.outcome, Process.outcome_start] at hr
    exact ⟨log', r, hrest, hr⟩
  · rintro ⟨f, -, hstep⟩
    have hsize : ∀ k, (f k).size + k = (f 0).size := by
      intro k
      induction k with
      | zero => rfl
      | succ k ih =>
          obtain ⟨out, hk⟩ := hstep k
          have hlt := hk.size
          omega
    have hlast := hsize ((f 0).size + 1)
    omega

/-- A test whose child fails an assertion; the child is waited for. -/
def Sample.forkingFail : ForkingTest 0 :=
  forkingFnStart Sample.loc (checkFork (forkingAssertFailed Sample.cfg Sample.loc
    (.lit "x == y") none)
    (checkWaitpidAndExit (some 0)))

/-- What both processes write. -/
def Sample.forkingLog : List (List Nat × SendMsg) :=
  [([], .ctx .test), ([], Sample.loc.msg), ([0], Sample.loc.msg),
    ([0], .fail (some (.lit "x == y")))]

theorem Sample.sends_forkingFail : Sample.forkingFail.Sends Sample.cfg where
  sendable path m hm := by
    have hall : ∀ m ∈ Sample.forkingLog.map Prod.snd,
        m.NonNeg ∧ Limited Sample.cfg.maxMsg [m] ∧ m ≠ .ctx .invalid := by decide
    have hmem : m ∈ Sample.forkingLog.map Prod.snd := by
      rcases path with _ | ⟨_ | i, _ | ⟨j, path⟩⟩
      all_goals
        simp [forkingFail, forkingFnStart, checkFork, checkWaitpidAndExit, forkingAssertFailed,
          Forking.writes, forkingLog, failureText] at hm ⊢
        try grind
    exact ⟨(hall m hmem).1, (hall m hmem).2.1, (hall m hmem).2.2⟩
  context := ⟨.test, List.mem_cons_self⟩

theorem Sample.run_forkingFail : ∃ q, Run waitpidStatus
    (.start Sample.forkingFail) Sample.forkingLog q ∧
    q.status = some (.exited 1) := by
  have hstart : Run waitpidStatus (.start Sample.forkingFail) [] (.start Sample.forkingFail) :=
      .refl
  have hforked := ((hstart.step (.write _ _ _)).step (.write _ _ _)).step (.fork _ _ _)
  have hchild := ((hforked.step (.runningKid _ _ 0 (.write _ _ _))).step
    (.runningKid _ _ 0 (.write _ _ _))).step (.runningKid _ _ 0 (.stop _ _))
  exact ⟨_, hchild.step (.wait _ 0 rfl), rfl⟩

end LibCheck
