import LibCheck.Nested
import LibCheck.Plain

/-!
# LibCheck.Pending

The failures that are waiting in the message file.  A failing assertion adds
one, receiving a result removes them all, and whoever receives next is charged
with them.

* `fails` — whether a user function ends in a failing assertion.
* `Proc.pending` — whether a failure is waiting.
* `findSomeM_runSetup_ok`, `findSomeM_runTeardown_ok`, `tcaseRunTfun_pending` — what
  setups, teardowns and tests that return have found and left there.
-/

namespace LibCheck

open Prog

/-! ## waiting failures -/

/-- The message of a failing assertion. -/
def CheckMsg.isFail : SendMsg → Bool
  | .fail _ => true
  | _ => false

/-- A failure is waiting in the current message file. -/
def Proc.pending (p : Proc SendMsg) : Bool :=
  match p.getPipe with
  | some f => f.content.any CheckMsg.isFail
  | none => false

theorem Proc.pending_of_getPipe {p q : Proc SendMsg} (h : p.getPipe = q.getPipe) :
    p.pending = q.pending := by
  rw [pending, pending, h]

theorem Proc.pending_granted (p : Proc SendMsg) : p.granted.pending = p.pending :=
  pending_of_getPipe p.getPipe_granted

theorem Proc.pending_fwrite {p : Proc SendMsg} (h : p.getPipe.isSome) (ms : List SendMsg) :
    (p.fwrite ms).pending = (p.pending || ms.any CheckMsg.isFail) := by
  cases e2 : p.sendFile2 with
  | some f => simp only [pending, getPipe, fwrite, e2, List.any_append]
  | none =>
      cases e1 : p.sendFile1 with
      | none => simp [getPipe, e1, e2] at h
      | some f => simp only [pending, getPipe, fwrite, e1, e2, Option.map_some, List.any_append]

theorem Proc.pending_renew (p : Proc SendMsg) : p.renew.pending = false := by
  cases e1 : p.sendFile1 <;> cases e2 : p.sendFile2 <;>
    simp [pending, getPipe, renew, openFile1, openFile2, e1, e2]

/-- What the receiver finds: a failure, if one was waiting. -/
theorem received_msg_isSome (ms : List SendMsg) :
    (received rcvmsgCreate ms).msg.isSome = ms.any CheckMsg.isFail := by
  cases h : ms.any CheckMsg.isFail with
  | true =>
      obtain ⟨m, hm, hf⟩ := List.any_eq_true.mp h
      obtain ⟨t, rfl⟩ : ∃ t, m = .fail t := by
        cases m <;> first | exact ⟨_, rfl⟩ | cases hf
      exact Option.isSome_iff_ne_none.mpr (received_msg_ne_none (.inr ⟨t, hm⟩))
  | false =>
      have hno : ∀ m ∈ ms, ∀ t, m ≠ .fail t := by
        rintro m hm t rfl
        exact absurd rfl (List.any_eq_false.mp h _ hm)
      obtain ⟨c, hc⟩ := RcvMsg.clean_rcvmsgCreate.received hno
      rw [hc.msg]
      rfl

section

variable {x : Ctx} {s s' : St List SendMsg ν}

theorem sendMsg_pending {m : SendMsg} (h : sendMsg x m s = .ok () s') :
    s'.proc.pending = (s.proc.pending || m.isFail) := by
  rcases sendMsg_apply x m s with ⟨n, sig, -, he⟩ | ⟨-, he⟩ | ⟨data, hm, hp, he⟩
  · rw [he] at h
    cases h
  · rw [he] at h
    cases h
  · rw [he, wire_ppack_ok hm] at h
    cases h
    have hp' : s.proc.granted.getPipe.isSome := by
      rw [Proc.getPipe_granted]
      exact hp
    show (s.proc.granted.fwrite [m]).pending = _
    rw [Proc.pending_fwrite hp', Proc.pending_granted]
    simp

/-- What a receiver of whole messages goes on with. -/
theorem rcvOutcome_ok {cfg : Config} {ms : List SendMsg} {rmsg : RcvMsg}
    (h : rcvOutcome (Wire.punpack cfg ms) = .ok rmsg) : rmsg = received rcvmsgCreate ms := by
  rw [rcvOutcome_messages] at h
  split at h
  · cases h
    rfl
  · cases h

/-- Receiving leaves an empty file, and whether there is a failure to report was
decided before. -/
theorem receiveTestResult_pending {w : Bool} {tr : TestResult}
    (h : receiveTestResult x w s = .ok tr s') :
    s'.proc.pending = false ∧ tr.msg.isSome = s.proc.pending := by
  rw [receiveTestResult_apply] at h
  cases hp : s.proc.getPipe with
  | none =>
      rw [hp] at h
      cases h
  | some f =>
      rw [hp, Option.map_some] at h
      cases hout : rcvOutcome (Wire.punpack x.cfg f.content) with
      | error e =>
          rw [hout] at h
          cases h
      | ok rmsg =>
          rw [hout] at h
          cases h
          refine ⟨s.proc.pending_renew, ?_⟩
          rw [RcvMsg.msg_construct, rcvOutcome_ok hout, received_msg_isSome, Proc.pending, hp]

theorem receiveResultInfoNofork_pending {tcname tname : CStr} {iter : Int} {duration : Int32}
    {tr : TestResult} (h : receiveResultInfoNofork x tcname tname iter duration s = .ok tr s') :
    s'.proc.pending = false ∧ (tr.rtype ≠ .pass ↔ s.proc.pending = true) := by
  obtain ⟨tr', s1, hrcv, h⟩ := bind_eq_ok.mp h
  cases h
  obtain ⟨hleft, hmsg⟩ := receiveTestResult_pending hrcv
  refine ⟨hleft, ?_⟩
  rw [← hmsg, setNoforkInfo]
  cases tr'.msg <;> simp

/-- A result of the same process. -/
theorem receiveResultInfoNofork_rtype {tcname tname : CStr} {iter : Int} {duration : Int32}
    {tr : TestResult} (h : receiveResultInfoNofork x tcname tname iter duration s = .ok tr s') :
    tr.tcname = some tcname ∧ (tr.rtype = .failure ↔ s.proc.pending = true) := by
  have hpass := (receiveResultInfoNofork_pending h).2
  obtain ⟨tr', s1, -, h⟩ := bind_eq_ok.mp h
  cases h
  rw [← hpass, setNoforkInfo]
  cases tr'.msg <;> simp

end

/-! ## user functions -/

/-- The function ends in a failing assertion. -/
def fails : List (Act ν) → Bool
  | .markPoint _ :: acts => fails acts
  | .call _ :: acts => fails acts
  | .assertFailed _ _ _ :: _ => true
  | _ => false

section

variable {x : Ctx} {s s' : St List SendMsg NestedRun}

/-- A nested run leaves the file of the surrounding run alone. -/
theorem runNested_pending {c : NestedRun} (h1 : s.proc.sendFile1.isSome)
    (h : runNested x c s = .ok () s') :
    s'.proc.sendFile1.isSome ∧ s'.proc.pending = s.proc.pending := by
  obtain ⟨f, hf⟩ := Option.isSome_iff_exists.mp h1
  obtain ⟨hnone, hf1, hf2, -⟩ := runNested_ok hf h
  refine ⟨by rw [hf1]; rfl, Proc.pending_of_getPipe ?_⟩
  rw [Proc.getPipe, Proc.getPipe, hf1, hf2, hf, hnone]

theorem sendMsg_file1 {m : SendMsg} (h1 : s.proc.sendFile1.isSome)
    (h : sendMsg x m s = .ok () s') : s'.proc.sendFile1.isSome := by
  rcases sendMsg_apply x m s with ⟨n, sig, -, he⟩ | ⟨-, he⟩ | ⟨data, hm, hp, he⟩
  · rw [he] at h
    cases h
  · rw [he] at h
    cases h
  · rw [he] at h
    cases h
    show (s.proc.granted.fwrite data).sendFile1.isSome
    rw [Proc.granted_eq]
    simp only [Proc.fwrite]
    split
    · exact h1
    · rw [Option.isSome_map]
      exact h1

/-- A user function that returns, or is left by a jump. -/
theorem runFun_pending {acts : List (Act NestedRun)} {b : Bool} (h1 : s.proc.sendFile1.isSome)
    (h : runFun x (runNested x) acts s = .ok b s') :
    b = fails acts ∧ s'.proc.pending = (s.proc.pending || fails acts) := by
  induction acts generalizing s with
  | nil =>
      cases h
      simp [fails]
  | cons act acts ih =>
      cases act with
      | markPoint loc =>
          obtain ⟨_, s1, hsend, h⟩ := bind_eq_ok.mp h
          obtain ⟨hb, hp⟩ := ih (sendMsg_file1 h1 hsend) h
          have hp1 := sendMsg_pending hsend
          simp only [CheckMsg.isFail, Bool.or_false] at hp1
          rw [hp1] at hp
          exact ⟨hb, hp⟩
      | assertFailed loc expr msg =>
          obtain ⟨_, s1, hassert, h⟩ := bind_eq_ok.mp h
          cases h
          obtain ⟨⟨s2, -, hfail⟩, -⟩ := ckAssertFailed_ok hassert
          have hp : s'.proc.pending = true := by
            rw [sendMsg_pending hfail]
            exact Bool.or_true _
          rw [hp]
          simp [fails]
      | exit status =>
          obtain ⟨_, s1, -, h⟩ := bind_eq_ok.mp h
          cases h
      | raise sig => cases h
      | call c =>
          obtain ⟨_, s1, hcall, h⟩ := bind_eq_ok.mp h
          obtain ⟨h1', hp1⟩ := runNested_pending h1 hcall
          obtain ⟨hb, hp⟩ := ih h1' h
          rw [hp1] at hp
          exact ⟨hb, hp⟩

theorem callFixture_pending {fl : FixtureList} {f : Fixture NestedRun} {b : Bool}
    (h1 : s.proc.sendFile1.isSome) (h : callFixture x (runNested x) fl f s = .ok b s') :
    b = fails (f.sfun.acts s.now) ∧
      s'.proc.pending = (s.proc.pending || fails (f.sfun.acts s.now)) :=
  runFun_pending (s := s.onProc (Proc.observe x.lvl (.fixture fl f.sfun.addr))) h1 h

theorem protect_callFixture_pending {fl : FixtureList} {f : Fixture NestedRun} {b : Bool}
    (h1 : s.proc.sendFile1.isSome)
    (h : protect x (callFixture x (runNested x) fl f) s = .ok b s') :
    b = fails (f.sfun.acts s.now) ∧
      s'.proc.pending = (s.proc.pending || fails (f.sfun.acts s.now)) :=
  callFixture_pending (s := s.onProc fun p => { p with errorJmpBuffer := some x.lvl }) h1 h

theorem protect_callTest_pending {tfun : TF NestedRun} {i : Int} {b : Bool}
    (h1 : s.proc.sendFile1.isSome) (h : protect x (callTest x (runNested x) tfun i) s = .ok b s') :
    s'.proc.pending = (s.proc.pending || fails (tfun.ttest.fn i s.now)) := by
  rw [protect, update_bind] at h
  obtain ⟨_, s1, hctx, h⟩ := bind_eq_ok.mp h
  obtain ⟨_, s2, hloc, h⟩ := bind_eq_ok.mp h
  rw [update_bind, read_bind] at h
  have hp1 := sendMsg_pending hctx
  have hp2 := sendMsg_pending hloc
  simp only [CheckMsg.isFail, Bool.or_false] at hp1 hp2
  have hnow1 := congrArg (fun m => m.2.2) ((keeps_sendMsg x _).of_ok hctx)
  have hnow2 := congrArg (fun m => m.2.2) ((keeps_sendMsg x _).of_ok hloc)
  have hnow : s2.now = s.now := hnow2.trans hnow1
  have hfile2 : s2.proc.sendFile1.isSome :=
    sendMsg_file1 (sendMsg_file1 (s := s.onProc fun p => { p with errorJmpBuffer := some x.lvl }) h1
      hctx) hloc
  have hp := (runFun_pending (s := s2.onProc (Proc.observe x.lvl (.body tfun.ttest.name i))) hfile2
    h).2
  rw [show (s2.onProc (Proc.observe x.lvl (.body tfun.ttest.name i))).now = s.now from hnow] at hp
  rw [hp]
  exact congrArg (· || _) (hp2.trans hp1)

/-! ## what user code leaves alone -/

/-- From `s` to `s'` only user code has run: nothing but the process has changed, no
event was logged, and the message file of the run is still open. -/
structure Silent (x : Ctx) (s s' : St List SendMsg NestedRun) : Prop where
  memory : s'.memory = s.memory
  seen : ∀ {γ : Type} (g : Obs → Option γ), (∀ o, o.isUser → g o = none) →
    shown g x.lvl s'.proc.hist = shown g x.lvl s.proc.hist
  file1 : s.proc.sendFile1.isSome → s'.proc.sendFile1.isSome

theorem Silent.trans {s'' : St List SendMsg NestedRun} (h : Silent x s s') (h' : Silent x s' s'') :
    Silent x s s'' :=
  ⟨h'.memory.trans h.memory, fun g hg => (h'.seen g hg).trans (h.seen g hg),
    fun h1 => h'.file1 (h.file1 h1)⟩

theorem Silent.heap (h : Silent x s s') : s'.heap = s.heap := congrArg (fun m => m.1) h.memory

theorem Silent.sr (h : Silent x s s') : s'.sr = s.sr := congrArg (fun m => m.2.1) h.memory

theorem Silent.now (h : Silent x s s') : s'.now = s.now := congrArg (fun m => m.2.2) h.memory

theorem silent_fstat (x : Ctx) (fstat : ForkStatus) (s : St List SendMsg NestedRun) :
    Silent x s (s.onProc fun p => { p with fstat := fstat }) :=
  ⟨rfl, fun _ _ => rfl, id⟩

theorem msgsInv_file1 (x : Ctx) :
    MsgsInv x (fun _ => True) (fun m => m.1.isSome) (fun _ => True) where
  stop _ _ := trivial
  write p m hp _ := by
    simp only [Proc.msgs, Proc.fwrite] at hp ⊢
    split
    · exact hp
    · rw [Option.isSome_map]
      exact hp
  renew p hp _ := by
    simp only [Proc.msgs, Proc.renew] at hp ⊢
    split
    · exact hp
    · rfl
    · rfl
  observe _ _ _ hp := hp
  join p c hp _ := by
    obtain ⟨f, hf⟩ := Option.isSome_iff_exists.mp hp
    simp only [Proc.msgs] at hf
    simp only [Proc.msgs, Proc.join, hf]
    cases c.sendFile1 with
    | none => rfl
    | some g =>
        simp only [sharedFile]
        split <;> rfl

/-- What fixtures and tests do is silent. -/
theorem silent_of_closed {y : RunM List SendMsg NestedRun α} {a : α}
    (hy : ∀ P : ∀ {α : Type}, RunM List SendMsg NestedRun α → Prop,
      TestClosed x (runNested x) P → P y) (h : y s = .ok a s') : Silent x s s' where
  memory := (hy _ (testClosed_memory (keeps_runNested x))).of_ok h
  seen g hg := ((hy _ ((msgsInv_shown x g _).testClosed hg (runNested_shown x g _))).of_ok rfl h)
  file1 h1 := by
    have hcall : ∀ c, MsgsInv.Holds (fun m => m.1.isSome) (fun _ => True)
        (runNested x c : RunM List SendMsg NestedRun Unit) := by
      intro c s hs
      cases hres : (runNested x c s : EStateM.Result Stop (St List SendMsg NestedRun) Unit) with
      | ok a s' => exact (runNested_pending hs hres).1
      | error e s' =>
          have hobs := runNested_obsAt (Nat.succ_ne_self x.lvl) _ c s rfl
          rw [hres] at hobs
          exact ⟨trivial, hobs.2⟩
    exact (hy _ ((msgsInv_file1 x).testClosed (fun _ _ => trivial) hcall)).of_ok h1 h

/-! ## setups, teardowns and tests -/

/-- A setup in the same process: the result is a failure if one was waiting
before or the setup fails itself. -/
theorem runSetup_pending {fl : FixtureList} {tname sname : CStr} {f : Fixture NestedRun}
    {r : Option TestResult} (h1 : s.proc.sendFile1.isSome)
    (h : runSetup x (runNested x) fl .nofork tname sname f s = .ok r s') :
    r.isSome = (s.proc.pending || fails (f.sfun.acts s.now)) ∧ s'.proc.pending = false := by
  rw [runSetup, if_pos rfl] at h
  obtain ⟨_, s1, hsend, h⟩ := bind_eq_ok.mp h
  obtain ⟨_, s2, hcall, h⟩ := bind_eq_ok.mp h
  obtain ⟨tr, s3, hrcv, h⟩ := bind_eq_ok.mp h
  have hp1 := sendMsg_pending hsend
  simp only [CheckMsg.isFail, Bool.or_false] at hp1
  have hnow1 : s1.now = s.now := congrArg (fun m => m.2.2) ((keeps_sendMsg x _).of_ok hsend)
  have hp2 := (protect_callFixture_pending (sendMsg_file1 h1 hsend) hcall).2
  obtain ⟨hleft, hpass⟩ := receiveResultInfoNofork_pending hrcv
  rw [hp2, hp1, hnow1] at hpass
  by_cases hp : tr.rtype ≠ .pass
  · rw [if_pos hp] at h
    cases h
    exact ⟨(hpass.mp hp).symm, hleft⟩
  · rw [if_neg hp] at h
    cases h
    exact ⟨(Bool.eq_false_iff.mpr fun h => hp (hpass.mpr h)).symm, hleft⟩

theorem silent_runSetup {fl : FixtureList} {usage : ForkStatus} {tname sname : CStr}
    {f : Fixture NestedRun} {r : Option TestResult}
    (h : runSetup x (runNested x) fl usage tname sname f s = .ok r s') : Silent x s s' :=
  silent_of_closed (fun _ hP => hP.runSetup fl usage tname sname f) h

/-- Setups in the same process, until one fails. -/
theorem findSomeM_runSetup_ok {fl : FixtureList} {tname sname : CStr}
    (fs : List (Fixture NestedRun)) {r : Option TestResult} (h1 : s.proc.sendFile1.isSome)
    (h : fs.findSomeM? (runSetup x (runNested x) fl .nofork tname sname) s = .ok r s') :
    r.isSome = ((!fs.isEmpty && s.proc.pending) || fs.any fun f => fails (f.sfun.acts s.now)) ∧
      s'.proc.pending = (fs.isEmpty && s.proc.pending) := by
  induction fs generalizing s with
  | nil =>
      cases h
      simp
  | cons f fs ih =>
      obtain ⟨r1, s1, hf, h⟩ := bind_eq_ok.mp h
      obtain ⟨hr1, hp1⟩ := runSetup_pending h1 hf
      have hsil := silent_runSetup hf
      have hnow : s1.now = s.now := hsil.now
      cases r1 with
      | some tr =>
          cases h
          refine ⟨?_, hp1⟩
          rw [Option.isSome_some] at hr1 ⊢
          rw [List.any_cons, ← Bool.or_assoc, List.isEmpty_cons, Bool.not_false,
            Bool.true_and, ← hr1,
            Bool.true_or]
      | none =>
          obtain ⟨hr, hp⟩ := ih (hsil.file1 h1) h
          rw [Option.isSome_none] at hr1
          rw [hp1, Bool.and_false, Bool.false_or, hnow] at hr
          rw [hp1, Bool.and_false] at hp
          refine ⟨?_, hp⟩
          rw [hr, List.any_cons, ← Bool.or_assoc, List.isEmpty_cons, Bool.not_false, Bool.true_and,
            ← hr1, Bool.false_or]

/-- The setups of a test case, in the same process. -/
theorem srunnerRunSetup_pending {fl : FixtureList} {tc : TCaseId} {tname sname : CStr}
    {r : Option TestResult} (h1 : s.proc.sendFile1.isSome)
    (h : srunnerRunSetup x (runNested x) fl tc .nofork tname sname s = .ok r s') :
    r.isSome = ((!(s.heap.lists (.fixtures fl tc)).isEmpty && s.proc.pending) ||
        (s.heap.lists (.fixtures fl tc)).any fun f => fails (f.sfun.acts s.now)) ∧
      s'.proc.pending = ((s.heap.lists (.fixtures fl tc)).isEmpty && s.proc.pending) := by
  rw [srunnerRunSetup, if_neg (by decide)] at h
  exact findSomeM_runSetup_ok (s.heap.lists (.fixtures fl tc)) h1 h

/-- Setups in the same process only return failures. -/
theorem srunnerRunSetup_some {fl : FixtureList} {tc : TCaseId} {tname sname : CStr}
    {tr : TestResult}
    (h : srunnerRunSetup x (runNested x) fl tc .nofork tname sname s = .ok (some tr) s') :
    tr.rtype = .failure ∧ tr.tcname = some tname := by
  rw [srunnerRunSetup, if_neg (by decide)] at h
  obtain ⟨f, s1, s2, h⟩ := returns_forList (x := x) (r := .fixtures fl tc) ⟨s, s', h⟩
  rw [runSetup, if_pos rfl] at h
  obtain ⟨_, s3, -, h⟩ := bind_eq_ok.mp h
  obtain ⟨_, s4, -, h⟩ := bind_eq_ok.mp h
  obtain ⟨tr', s5, hrcv, h⟩ := bind_eq_ok.mp h
  split at h
  · next hp =>
      cases h
      obtain ⟨hname, hfail⟩ := receiveResultInfoNofork_rtype hrcv
      exact ⟨hfail.mpr ((receiveResultInfoNofork_pending hrcv).2.mp hp), hname⟩
  · cases h

/-- A teardown: a failure stays behind. -/
theorem runTeardown_pending {fl : FixtureList} {usage : ForkStatus} {f : Fixture NestedRun}
    {r : Option Unit} (h1 : s.proc.sendFile1.isSome)
    (h : runTeardown x (runNested x) fl usage f s = .ok r s') :
    r.isSome = fails (f.sfun.acts s.now) ∧
      s'.proc.pending = (s.proc.pending || fails (f.sfun.acts s.now)) := by
  obtain ⟨_, s1, hsend, h⟩ := bind_eq_ok.mp h
  have hp1 := sendMsg_pending hsend
  simp only [CheckMsg.isFail, Bool.or_false] at hp1
  have h1' := sendMsg_file1 h1 hsend
  have hnow1 : s1.now = s.now := congrArg (fun m => m.2.2) ((keeps_sendMsg x _).of_ok hsend)
  by_cases hu : usage = .nofork
  · rw [if_pos hu] at h
    obtain ⟨b, s2, hcall, h⟩ := bind_eq_ok.mp h
    obtain ⟨hb, hp2⟩ := protect_callFixture_pending h1' hcall
    rw [hnow1] at hb hp2
    rw [hp1] at hp2
    cases b with
    | true =>
        cases h
        exact ⟨hb, hp2⟩
    | false =>
        cases h
        exact ⟨hb, hp2⟩
  · rw [if_neg hu] at h
    obtain ⟨_, s2, hcall, h⟩ := bind_eq_ok.mp h
    cases h
    -- a jump would go to a dead frame
    obtain ⟨b, s3, hcall, hb'⟩ := bind_eq_ok.mp hcall
    obtain ⟨hb, hp2⟩ := callFixture_pending h1' hcall
    rw [hnow1] at hb hp2
    rw [hp1] at hp2
    cases b with
    | true => cases hb'
    | false =>
        cases hb'
        exact ⟨hb, hp2⟩

theorem silent_runTeardown {fl : FixtureList} {usage : ForkStatus} {f : Fixture NestedRun}
    {r : Option Unit} (h : runTeardown x (runNested x) fl usage f s = .ok r s') : Silent x s s' :=
  silent_of_closed (fun _ hP => hP.runTeardown fl usage f) h

theorem findSomeM_runTeardown_ok {fl : FixtureList} {usage : ForkStatus}
    (fs : List (Fixture NestedRun)) {r : Option Unit} (h1 : s.proc.sendFile1.isSome)
    (h : fs.findSomeM? (runTeardown x (runNested x) fl usage) s = .ok r s') :
    s'.proc.pending = (s.proc.pending || fs.any fun f => fails (f.sfun.acts s.now)) := by
  induction fs generalizing s with
  | nil =>
      cases h
      simp
  | cons f fs ih =>
      obtain ⟨r1, s1, hf, h⟩ := bind_eq_ok.mp h
      obtain ⟨hr1, hp1⟩ := runTeardown_pending h1 hf
      have hsil := silent_runTeardown hf
      have hnow : s1.now = s.now := hsil.now
      cases r1 with
      | some u =>
          cases h
          rw [Option.isSome_some] at hr1
          rw [hp1, List.any_cons, ← hr1, Bool.true_or]
      | none =>
          rw [Option.isSome_none] at hr1
          rw [ih (hsil.file1 h1) h, hnow, hp1, List.any_cons, ← hr1, Bool.or_false, Bool.false_or]

/-- A test leaves nothing behind. -/
theorem tcaseRunTfun_pending {tc : TCaseId} {tfun : TF NestedRun} {i : Int} {tr : TestResult}
    (h1 : s.proc.sendFile1.isSome) (h : tcaseRunTfun x (runNested x) tc tfun i s = .ok tr s') :
    s'.proc.pending = false := by
  rw [tcaseRunTfun, srunnerForkStatus, read_bind] at h
  cases hmode : forkStatusOf x.env s.sr.fstat with
  | getenv =>
      rw [hmode] at h
      cases h
  | fork =>
      rw [hmode] at h
      obtain ⟨_, s1, -, h⟩ := bind_eq_ok.mp h
      obtain ⟨_, s2, -, h⟩ := bind_eq_ok.mp h
      obtain ⟨_, s3, -, h⟩ := bind_eq_ok.mp h
      obtain ⟨_, s4, -, h⟩ := bind_eq_ok.mp h
      obtain ⟨_, s5, hrcv, h⟩ := bind_eq_ok.mp h
      obtain ⟨_, s6, h6, h⟩ := bind_eq_ok.mp h
      cases h6
      cases h
      exact (receiveTestResult_pending hrcv).1
  | nofork =>
      rw [hmode] at h
      obtain ⟨r, s1, hset, h⟩ := bind_eq_ok.mp h
      cases r with
      | none =>
          obtain ⟨_, s2, -, h⟩ := bind_eq_ok.mp h
          obtain ⟨_, s3, -, h⟩ := bind_eq_ok.mp h
          obtain ⟨_, s4, -, h⟩ := bind_eq_ok.mp h
          obtain ⟨_, s5, -, h⟩ := bind_eq_ok.mp h
          exact (receiveResultInfoNofork_pending h).1
      | some tr' =>
          cases h
          rw [tcaseRunCheckedSetup, srunnerForkStatus, read_bind, read_bind, hmode] at hset
          obtain ⟨hr, hp⟩ := srunnerRunSetup_pending h1 hset
          rw [hp]
          cases hfs : s.heap.lists (.fixtures .chSflst tc) with
          | nil =>
              rw [hfs] at hr
              cases hr
          | cons f fs => rfl

end

end LibCheck
