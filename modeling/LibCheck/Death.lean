import LibCheck.Verdict

/-!
# LibCheck.Death

A test process that dies at any point (`CK_FORK`).

The parent finds in the message file what the child has sent before it died,
and a wait status.  What it does then is `afterWaitpid`: it receives the result,
adds it to the runner and sends the log event, and the run goes on.

* `ChildSends` — the messages that the child of a test sends when it is not
  killed.
* `childSends_valid` — they begin with a context, whatever the test does.
* `child_death_survived_iff` — which deaths the parent survives.
-/

namespace LibCheck

open Prog

/-! ## nested runs that do not return -/

/-- A run that is started while the first message file is open leaves it as it
was, wherever it stops; with both files open it stops at once. -/
theorem srunnerRunTagged_error_files {x : Ctx} {a : RunArgs} {call : ν → RunM List SendMsg ν Unit}
    {s s' : St List SendMsg ν} {f : Pipe SendMsg}
    (hcall : ∀ c, MsgsInv.Holds (fun m => m.1 = some f ∧ m.2.1.isSome) (fun m => m.1 = some f)
      (call c))
    (h1 : s.proc.sendFile1 = some f) (h : srunnerRunTagged x call a s = .error e s') :
    s'.proc.sendFile1 = some f ∧ ∀ g, s.proc.sendFile2 = some g → s'.proc.sendFile2 = some g := by
  have hclosed := (msgsInv_outerFile x f).runClosed (fun _ => trivial) hcall
  have hbody : MsgsInv.Holds (fun m => m.1 = some f ∧ m.2.1.isSome) (fun m => m.1 = some f)
      (runBody x call a) :=
    Maintains.bind (hclosed.srunnerInitLogging _) fun _ =>
      Maintains.bind (hclosed.event _ _) fun _ =>
      Maintains.bind (hclosed.toSuitesClosed.steps.srunnerIterateSuites _) fun _ =>
        Maintains.bind (hclosed.event _ _) fun _ => hclosed.srunnerEndLogging
  rw [srunnerRunTagged_eq, bind_apply] at h
  cases h2 : s.proc.sendFile2 with
  | some g =>
      have hsetup : setupPipe (runStart x s) = .error (.exited 2) (runStart x s) := by
        simp [setupPipe, bind_apply, runStart, St.onProc, h1, h2, eprintf]
      rw [hsetup] at h
      cases h
      exact ⟨h1, fun g' hg' => h2.trans hg'⟩
  | none =>
      have hsetup : setupPipe (runStart x s) = .ok () ((runStart x s).onProc Proc.openFile2) := by
        simp [setupPipe, bind_apply, runStart, St.onProc, h1, h2]
      refine ⟨?_, by simp⟩
      rw [hsetup] at h
      simp only [bind_apply] at h
      have hm := hbody ((runStart x s).onProc Proc.openFile2) ⟨h1, rfl⟩
      cases hres : runBody x call a ((runStart x s).onProc Proc.openFile2) with
      | error e' t =>
          rw [hres] at h hm
          cases h
          exact hm.1
      | ok u t =>
          -- the file that was opened is still there to be closed
          rw [hres] at h hm
          have htear : teardownPipe t = .ok () (t.onProc fun p =>
              { p with sendFile2 := none }) := by
            have h2' : t.proc.sendFile2.isSome := hm.2
            simp [teardownPipe, bind_apply, h2']
          simp only [htear] at h
          cases h

theorem runNested_error_files {x : Ctx} {c : NestedRun} {s s' : St List SendMsg NestedRun}
    {f : Pipe SendMsg} (h1 : s.proc.sendFile1 = some f) (h : runNested x c s = .error e s') :
    s'.proc.sendFile1 = some f ∧ ∀ g, s.proc.sendFile2 = some g → s'.proc.sendFile2 = some g := by
  simp only [runNested] at h
  cases hres : srunnerRunTagged (x.nested c.env) Empty.elim c.args
      (c.start s.proc : St List SendMsg Empty) with
  | ok u t =>
      rw [hres] at h
      cases h
  | error e' t =>
      rw [hres] at h
      cases h
      exact srunnerRunTagged_error_files (s := c.start s.proc) (fun c => c.elim) h1 hres

/-! ## what a child sends -/

/-- A message of the library: every context is one that exists. -/
def ValidMsg (m : SendMsg) : Prop := m ≠ .ctx .invalid

/-- What a child can have sent: nothing, or first the context of its setups. -/
structure ChildStream (ms : List SendMsg) : Prop where
  head : ms = [] ∨ ms.head? = some (.ctx .setup)
  valid : ∀ m ∈ ms, ValidMsg m

/-- The parent finds the messages `ms` appended to its message file. -/
def Shared (p : Proc SendMsg) (ms : List SendMsg) (q : Proc SendMsg) : Prop :=
  (p.join q).getPipe = p.getPipe.map fun f => { f with content := f.content ++ ms }

/-- The child has its own end of the file, and has sent its first context. -/
def ChildTalks (p : Proc SendMsg) (s : St List SendMsg NestedRun) : Prop :=
  ∃ ms, ms ≠ [] ∧ ChildStream ms ∧ SentTo p ms s.proc

/-- Where the child stops, the parent finds what it has sent. -/
def ChildLeft (p : Proc SendMsg) (s : St List SendMsg NestedRun) : Prop :=
  ∃ ms, ChildStream ms ∧ Shared p ms s.proc

/-- The programs of a child. -/
abbrev Talks (p : Proc SendMsg) (y : RunM List SendMsg NestedRun α) : Prop :=
  Maintains (ChildTalks p) (fun _ => ChildLeft p) y

theorem ChildStream.append {ms : List SendMsg} {m : SendMsg} (h : ChildStream ms) (hne : ms ≠ [])
    (hm : ValidMsg m) : ChildStream (ms ++ [m]) := by
  refine ⟨.inr ?_, List.forall_mem_append.mpr ⟨h.valid, List.forall_mem_singleton.mpr hm⟩⟩
  rw [List.head?_append, h.head.resolve_left hne]
  rfl

theorem ChildTalks.left {p : Proc SendMsg} {s : St List SendMsg NestedRun} (h : ChildTalks p s)
    (hp : p.getPipe.isSome) : ChildLeft p s := by
  obtain ⟨ms, -, hms, hsent⟩ := h
  obtain ⟨f, hf⟩ := Option.isSome_iff_exists.mp hp
  refine ⟨ms, hms, ?_⟩
  rw [Shared, hsent.join hf, hf]
  rfl

section

variable {x : Ctx} {p : Proc SendMsg} (hp : p.getPipe.isSome)
include hp

theorem talks_throw (e : Stop) : Talks p (throw e : RunM List SendMsg NestedRun α) :=
  Maintains.throw fun _ hs => hs.left hp

omit hp in
/-- A step that leaves the message files alone. -/
theorem talks_update {f : Proc SendMsg → Proc SendMsg} (h1 : ∀ q, (f q).sendFile1 = q.sendFile1)
    (h2 : ∀ q, (f q).sendFile2 = q.sendFile2) : Talks p (update (St.onProc f)) := by
  refine Maintains.update fun s hs => ?_
  obtain ⟨ms, hne, hms, hf1, hf2⟩ := hs
  exact ⟨ms, hne, hms, (h1 _).trans hf1, (h2 _).trans hf2⟩

theorem talks_killPoint : Talks p killPoint := by
  refine Maintains.bind (Maintains.read _) fun k => ?_
  match k with
  | none => exact Maintains.pure ()
  | some (0, sig) => exact talks_throw hp _
  | some (n + 1, sig) => exact talks_update (fun _ => rfl) fun _ => rfl

theorem talks_sendMsg {m : SendMsg} (hm : ValidMsg m) : Talks p (sendMsg x m) := by
  intro s hs
  rcases sendMsg_apply x m s with ⟨n, sig, -, he⟩ | ⟨-, he⟩ | ⟨data, hq, -, he⟩
  · rw [he]
    exact hs.left hp
  · rw [he]
    have hg : ChildTalks p (s.onProc Proc.granted) := by
      obtain ⟨ms, hne, hms, hsent⟩ := hs
      refine ⟨ms, hne, hms, ?_⟩
      show SentTo p ms s.proc.granted
      rw [Proc.granted_eq]
      exact hsent
    exact hg.left hp
  · rw [he, wire_ppack_ok hq]
    obtain ⟨ms, hne, hms, hsent⟩ := hs
    refine ⟨ms ++ [m], by simp, hms.append hne hm, ?_⟩
    show SentTo p (ms ++ [m]) (s.proc.granted.fwrite [m])
    refine SentTo.fwrite ?_ m
    rw [Proc.granted_eq]
    exact hsent

theorem talks_loc (loc : SrcLoc) : Talks p (sendLocInfo x loc) :=
  talks_sendMsg hp fun he => nomatch he

theorem talks_ckAssertFailed (loc : SrcLoc) (expr : CStr) (msg : Option CStr) :
    Talks p (ckAssertFailed x loc expr msg) :=
  Maintains.bind (talks_update (fun _ => rfl) fun _ => rfl) fun _ =>
    Maintains.bind (talks_loc hp loc) fun _ =>
      Maintains.bind (talks_sendMsg hp fun he => nomatch he) fun _ =>
        Maintains.bind (Maintains.read _) fun _ => Maintains.ite (talks_throw hp _)
          (Maintains.bind (Maintains.read _) fun _ =>
            Maintains.ite (Maintains.pure _) (talks_throw hp _))

variable (h1 : p.sendFile1.isSome)
include h1

/-- A run inside the child. -/
theorem talks_runNested (c : NestedRun) : Talks p (runNested x c) := by
  intro s hs
  obtain ⟨ms, hne, hms, hf1, hf2⟩ := hs
  obtain ⟨f, hf⟩ : ∃ f, s.proc.sendFile1 = some f := by
    obtain ⟨g, hg⟩ := Option.isSome_iff_exists.mp h1
    rw [hf1]
    simp only [Proc.fwrite]
    split
    · exact ⟨g, hg⟩
    · exact ⟨_, by rw [hg]; rfl⟩
  cases hres : (runNested x c s : EStateM.Result Stop (St List SendMsg NestedRun) Unit) with
  | ok a s' =>
      obtain ⟨hnone, hf1', hf2', -⟩ := runNested_ok hf hres
      exact ⟨ms, hne, hms, (hf1'.trans hf.symm).trans hf1, (hf2'.trans hnone.symm).trans hf2⟩
  | error e s' =>
      obtain ⟨hf1', hf2'⟩ := runNested_error_files hf hres
      obtain ⟨g, hg⟩ := Option.isSome_iff_exists.mp hp
      have hsent : SentTo p ms s.proc := ⟨hf1, hf2⟩
      -- the parent sees its own file only
      have hsame : (p.join s'.proc).getPipe = (p.join s.proc).getPipe := by
        cases e2 : p.sendFile2 with
        | none => simp only [Proc.join, Proc.getPipe, e2, sharedFile, hf, hf1']
        | some g2 =>
            have hs2 : s.proc.sendFile2 = some { g2 with content := g2.content ++ ms } := by
              rw [hf2]
              simp only [Proc.fwrite, e2]
            simp only [Proc.join, Proc.getPipe, e2, sharedFile, hs2, hf2' _ hs2, if_true]
      refine ⟨ms, hms, ?_⟩
      rw [Shared, hsame, hsent.join hg, hg]
      rfl

theorem talks_runFun (acts : List (Act NestedRun)) : Talks p (runFun x (runNested x) acts) := by
  induction acts with
  | nil => exact Maintains.pure _
  | cons act acts ih =>
      cases act with
      | markPoint loc => exact Maintains.bind (talks_loc hp loc) fun _ => ih
      | assertFailed loc expr msg =>
          exact Maintains.bind (talks_ckAssertFailed hp loc expr msg) fun _ => Maintains.pure _
      | exit status => exact Maintains.bind (talks_killPoint hp) fun _ => talks_throw hp _
      | raise sig => exact talks_throw hp _
      | call c => exact Maintains.bind (talks_runNested hp h1 c) fun _ => ih

theorem talks_callFixture (fl : FixtureList) (f : Fixture NestedRun) :
    Talks p (callFixture x (runNested x) fl f) :=
  Maintains.bind (talks_update (fun _ => rfl) fun _ => rfl) fun _ =>
    Maintains.bind (Maintains.read _) fun _ => talks_runFun hp h1 _

theorem talks_callTest (tfun : TF NestedRun) (i : Int) :
    Talks p (callTest x (runNested x) tfun i) :=
  Maintains.bind (talks_sendMsg hp (by unfold ValidMsg; decide)) fun _ =>
    Maintains.bind (talks_loc hp _) fun _ =>
      Maintains.bind (talks_update (fun _ => rfl) fun _ => rfl) fun _ =>
        Maintains.bind (Maintains.read _) fun _ => talks_runFun hp h1 _

omit h1 in
theorem talks_unprotected {f : RunM List SendMsg NestedRun Bool} (h : Talks p f) :
    Talks p (unprotected f) :=
  Maintains.bind h fun _ => Maintains.ite (talks_throw hp _) (Maintains.pure _)

theorem talks_runSetup (fl : FixtureList) (tname sname : CStr) (f : Fixture NestedRun) :
    Talks p (runSetup x (runNested x) fl .fork tname sname f) := by
  rw [runSetup, if_neg (by decide)]
  exact Maintains.bind (talks_unprotected hp (talks_callFixture hp h1 fl f)) fun _ =>
    Maintains.pure _

theorem talks_runTeardown (fl : FixtureList) (f : Fixture NestedRun) :
    Talks p (runTeardown x (runNested x) fl .nofork f) := by
  refine Maintains.bind (talks_sendMsg hp (by unfold ValidMsg; decide)) fun _ => ?_
  rw [if_pos rfl]
  exact Maintains.bind (Maintains.bind (talks_update (fun _ => rfl) fun _ => rfl) fun _ =>
    talks_callFixture hp h1 fl f) fun _ => Maintains.ite (Maintains.pure _) (Maintains.pure _)

/-- What is left of a child after its first message. -/
theorem talks_afterFirst (tc : TCaseId) (tfun : TF NestedRun) (i : Int) (tname : CStr) :
    Talks p (do
      let _ ← forList x (.fixtures .chSflst tc)
        (runSetup x (runNested x) .chSflst .fork tname (.lit "checked_setup"))
      unprotected (callTest x (runNested x) tfun i)
      tcaseRunCheckedTeardown x (runNested x) tc
      let now ← read fun s => s.now
      sendDurationInfo x (testDuration x now)
      killPoint) :=
  Maintains.bind (fun s hs => Maintains.findSomeM (fun f _ => talks_runSetup hp h1 _ _ _ f) s hs)
    fun _ =>
    Maintains.bind (talks_unprotected hp (talks_callTest hp h1 tfun i)) fun _ =>
      Maintains.bind (Maintains.bind (fun s hs => Maintains.findSomeM (fun f _ =>
        talks_runTeardown hp h1 _ f) s hs) fun _ => Maintains.pure _) fun _ =>
        Maintains.bind (Maintains.read _) fun _ =>
          Maintains.bind (talks_sendMsg hp fun he => nomatch he) fun _ => talks_killPoint hp

end

/-- The state of the child when nobody is going to kill it. -/
def unharmed {L : Type → Type} {β ν : Type} (s : St L β ν) : St L β ν :=
  s.onProc fun q => { q with killIn := none }

/-- Wherever the child stops, killed or not, it has sent nothing or begun with a
context. -/
theorem testProcess_left {x : Ctx} {s : St List SendMsg NestedRun} (h1 : s.proc.sendFile1.isSome)
    (hsr : forkStatusOf x.env s.sr.fstat = .fork) (tc : TCaseId) (tfun : TF NestedRun) (i : Int) :
    ChildLeft s.proc (endState (testProcess x (runNested x) tc tfun i s)) := by
  have hp := Proc.isSome_getPipe h1
  obtain ⟨f, hf⟩ := Option.isSome_iff_exists.mp hp
  have hsent : SentTo s.proc [] s.proc := ⟨(Wrote.refl s).file1, (Wrote.refl s).file2⟩
  have hgranted : SentTo s.proc [] s.proc.granted := by
    rw [Proc.granted_eq]
    exact hsent
  have hnil : ∀ t : St List SendMsg NestedRun, SentTo s.proc [] t.proc → ChildLeft s.proc t := by
    intro t ht
    refine ⟨[], ⟨.inl rfl, by simp⟩, ?_⟩
    rw [Shared, ht.join hf, hf]
    rfl
  rw [testProcess_apply hsr]
  rcases sendMsg_apply x (.ctx .setup) s with ⟨n, sig, -, he⟩ | ⟨-, he⟩ | ⟨data, hq, -, he⟩
  · rw [sendCtxInfo, bind_of_error _ he]
    exact hnil s hsent
  · rw [sendCtxInfo, bind_of_error _ he]
    exact hnil (s.onProc Proc.granted) hgranted
  · rw [sendCtxInfo, bind_of_ok _ he, wire_ppack_ok hq]
    have htalks : ChildTalks s.proc (s.onProc fun p => p.granted.fwrite [.ctx .setup]) :=
      ⟨[.ctx .setup], by simp, ⟨.inr rfl, by simp [ValidMsg]; decide⟩, hgranted.fwrite
        (.ctx .setup)⟩
    exact (talks_afterFirst (x := x) hp h1 tc tfun i (s.heap.tcName tc)).endState htalks
      (fun _ h => h.left hp) fun _ _ h => h

/-- The messages that the child of a test sends when nobody kills it: what the
parent would find appended to its message file.  They are read off the abstract
machine, which the code follows step by step. -/
def ChildSends (x : Ctx) (tc : TCaseId) (tfun : TF NestedRun) (i : Int)
    (s : St CkList UInt8 NestedRun) (ms : List SendMsg) : Prop :=
  ∃ t, StRel x.cfg s t ∧
    Shared t.proc ms (endState (testProcess x (runNested x) tc tfun i (unharmed t))).proc

/-- They begin with a context, whatever the test does. -/
theorem childSends_valid {x : Ctx} {tc : TCaseId} {tfun : TF NestedRun} {i : Int}
    {s : St CkList UInt8 NestedRun} {ms : List SendMsg} (h1 : s.proc.sendFile1.isSome)
    (hsr : forkStatusOf x.env s.sr.fstat = .fork) (h : ChildSends x tc tfun i s ms) :
    ChildStream ms := by
  obtain ⟨t, hst, hms⟩ := h
  have ht1 : t.proc.sendFile1.isSome := by rw [hst.file1_isSome]; exact h1
  have htsr : forkStatusOf x.env t.sr.fstat = .fork := by
    cases hst with
    | mk _ _ => exact hsr
  obtain ⟨ms', hms', hshared⟩ := testProcess_left (s := unharmed t) ht1 htsr tc tfun i
  obtain ⟨f, hf⟩ := Option.isSome_iff_exists.mp (Proc.isSome_getPipe ht1)
  have hsame : ms = ms' := by
    have heq : some (f.content ++ ms) = some (f.content ++ ms') := by
      have h := congrArg (Option.map Pipe.content) (hms.symm.trans hshared)
      have hun : (unharmed t).proc.getPipe = t.proc.getPipe := rfl
      rw [hun, hf] at h
      exact h
    exact List.append_cancel_left (Option.some.inj heq)
  rw [hsame]
  exact hms'

/-! ## what the parent receives -/

/-- The last context is an existing one if and only if there is a context at
all. -/
theorem lastctx_ne_invalid_iff {ms : List SendMsg} (hv : ∀ m ∈ ms, ValidMsg m) :
    (received rcvmsgCreate ms).lastctx ≠ .invalid ↔ ∃ c, .ctx c ∈ ms := by
  rw [lastctx_received]
  cases hlast : lastCtx ms with
  | none =>
      refine iff_of_false (fun h => h rfl) ?_
      rintro ⟨c, hc⟩
      have hmem : c ∈ ms.filterMap ctx? := List.mem_filterMap.mpr ⟨.ctx c, hc, rfl⟩
      rw [List.getLast?_eq_none_iff.mp hlast] at hmem
      exact List.not_mem_nil hmem
  | some c =>
      refine iff_of_true ?_ ⟨c, mem_of_lastCtx hlast⟩
      rintro rfl
      exact hv _ (mem_of_lastCtx hlast) rfl

/-- The parent's part of a forked test after `waitpid`, up to the next test: the
result is received, added to the runner and logged. -/
def afterWaitpid {L : Type → Type} {β ν : Type} [Lists L] [Wire β] (x : Ctx) (tc : TCaseId)
    (tfun : TF ν) (i : Int) (status : WaitStatus) : RunM L β ν Unit := do
  let now ← read fun s => s.now
  update (St.onProc fun p => { p with alarmReceived := x.env.alarm now })
  let name ← read fun s => s.heap.tcName tc
  let tr ← receiveResultInfoFork x name tfun.ttest.name i status tfun.signal tfun.allowedExitValue
  srunnerAddFailure tr
  logTestEnd x tr

/-- It is what a forked test does after its child has ended. -/
theorem tcaseRunTfunFork_afterWaitpid {L : Type → Type} {β ν : Type} [Lists L] [Wire β] (x : Ctx)
    (call : ν → RunM L β ν Unit) (tc : TCaseId) (tfun : TF ν) (i : Int) :
    (do
      let tr ← tcaseRunTfunFork x call tc tfun i
      srunnerAddFailure tr
      logTestEnd x tr) =
    (do
      let status ← forkChild x (testProcess x call tc tfun i)
      afterWaitpid x tc tfun i status) := by
  simp only [tcaseRunTfunFork, afterWaitpid, bind_assoc]

theorem sim_afterWaitpid (x : Ctx) (tc : TCaseId) (tfun : TF ν) (i : Int) (status : WaitStatus) :
    Sim (StRel x.cfg) (afterWaitpid x tc tfun i status : RunM CkList UInt8 ν Unit)
      (afterWaitpid x tc tfun i status) :=
  Sim.bind (sim_read fun _ _ _ => rfl) fun _ =>
    Sim.bind (sim_update (fun _ _ _ => rfl) (fun _ => rfl) (fun _ => rfl)) fun _ =>
      Sim.bind (sim_read fun _ _ _ => rfl) fun _ =>
        Sim.bind (sim_receiveResultInfoFork x _ _ _ _ _ _) fun tr =>
          Sim.bind (sim_srunnerAddFailure tr) fun _ => sim_srunnerSendEvt x _ _

/-- A classified result is added to the runner and logged. -/
theorem record_ok {x : Ctx} {tr : TestResult} {s : St List SendMsg ν} (hlog : s.sr.loglst = true)
    (htr : tr.Classified) (hname : tr.tcname ≠ none) :
    ∃ s', (do srunnerAddFailure tr; logTestEnd x tr : RunM List SendMsg ν Unit) s = .ok () s' ∧
      s'.sr.resultlst = s.sr.resultlst ++ [tr] := by
  rw [srunnerAddFailure, update_bind]
  obtain ⟨s', hs', hsr⟩ := srunnerSendEvt_of_accepted (x := x) .endT
    (s := { s with sr := { s.sr with
      resultlst := Lists.addEnd s.sr.resultlst tr
      stats :=
        { nChecked := s.sr.stats.nChecked + 1
          nFailed := s.sr.stats.nFailed + if tr.rtype = .failure then 1 else 0
          nErrors := s.sr.stats.nErrors + if tr.rtype = .error then 1 else 0 } } })
    hlog (lfunStop_classified htr hname)
  refine ⟨s', hs', ?_⟩
  rw [hsr]
  rfl

/-- The abstract machine after `waitpid`: it goes on if it can read its file, and
stops in `eprintf` otherwise. -/
theorem afterWaitpid_messages {x : Ctx} {t : St List SendMsg ν} {f : Pipe SendMsg}
    (hp : t.proc.getPipe = some f) (hlog : t.sr.loglst = true) (tc : TCaseId)
    (tfun : TF ν) (i : Int)
    (status : WaitStatus) :
    if (∀ m ∈ f.content, m.NonNeg) ∧ (received rcvmsgCreate f.content).lastctx ≠ .invalid then
      ∃ tr t', afterWaitpid x tc tfun i status t = .ok () t' ∧
        t'.sr.resultlst = t.sr.resultlst ++ [tr] ∧ tr.tcname = some (t.heap.tcName tc) ∧
        tr.tname = some tfun.ttest.name ∧ tr.iter = i
    else ∃ t', afterWaitpid x tc tfun i status t = .error (.exited 2) t' := by
  have hreceive := receiveTestResult_messages (s := t.onProc fun p =>
    { p with alarmReceived := x.env.alarm t.now }) x hp (waserror status tfun.signal)
  have hafter : afterWaitpid x tc tfun i status t = (do
      let tr ← receiveResultInfoFork x (t.heap.tcName tc) tfun.ttest.name i status tfun.signal
        tfun.allowedExitValue
      srunnerAddFailure tr
      logTestEnd x tr : RunM List SendMsg ν Unit)
      (t.onProc fun p => { p with alarmReceived := x.env.alarm t.now }) := rfl
  rw [hafter]
  split
  · next h =>
      rw [if_pos h] at hreceive
      have hinfo := receiveResultInfoFork_of_ok hreceive (t.heap.tcName tc) tfun.ttest.name i
        tfun.allowedExitValue
      obtain ⟨htc, ht, hi⟩ := setForkInfo_names x.cfg
        ((t.onProc fun p => { p with alarmReceived := x.env.alarm t.now }).onProc
          Proc.renew).proc.alarmReceived
        { constructTestResult (received rcvmsgCreate f.content) (waserror status tfun.signal) with
          tcname := some (t.heap.tcName tc), tname := some tfun.ttest.name, iter := i }
        status tfun.signal tfun.allowedExitValue
      rw [bind_of_ok _ hinfo]
      obtain ⟨t', ht', hres⟩ := record_ok (x := x) (s := (t.onProc fun p =>
          { p with alarmReceived := x.env.alarm t.now }).onProc Proc.renew) hlog
        (classified_setForkInfo x.cfg _ _ status tfun.signal tfun.allowedExitValue)
        (by rw [htc]; exact Option.some_ne_none _)
      exact ⟨_, t', ht', hres, htc, ht, hi⟩
  · next h =>
      rw [if_neg h] at hreceive
      exact ⟨_, bind_of_error _ (bind_of_error _ hreceive)⟩

/-! ## the code -/

theorem StRel.rel_getPipe {s : St CkList UInt8 ν} {t : St List SendMsg ν} (h : StRel cfg s t) :
    Option.Rel (FileRel cfg) s.proc.getPipe t.proc.getPipe := by
  cases h with
  | mk h1 h2 => exact LibCheck.rel_getPipe h1 h2

/-- The child of the code writes the encodings of these messages, and all of them
are within the limit. -/
theorem ChildSends.written {x : Ctx} {tc : TCaseId} {tfun : TF NestedRun} {i : Int}
    {s : St CkList UInt8 NestedRun} {ms : List SendMsg} (h : ChildSends x tc tfun i s ms)
    (hp : s.proc.getPipe.isSome) :
    Limited x.cfg.maxMsg ms ∧
      (s.proc.join (endState (testProcess x (runNested x) tc tfun i (unharmed s))).proc).getPipe.map
          Pipe.content =
        s.proc.getPipe.map fun f => f.content ++ encodeAll ms := by
  obtain ⟨t, hst, hms⟩ := h
  have hun : StRel x.cfg (unharmed s) (unharmed t) := by
    cases hst with
    | mk h1 h2 => exact .mk (unharmed s) h1 h2
  have hend := (sim_testProcess (x := x) (sparesCase_runNested _) (sim_runNested _) tc tfun i _ _
    hun).endState
  have hjoin := (hst.joinChild hend).rel_getPipe
  have hfile := hst.rel_getPipe
  rw [show (joinChild t _).proc.getPipe = _ from hms] at hjoin
  obtain ⟨f, hf⟩ := Option.isSome_iff_exists.mp hp
  rw [hf] at hfile ⊢
  cases hg : t.proc.getPipe with
  | none =>
      rw [hg] at hfile
      cases hfile
  | some g =>
      rw [hg] at hfile hjoin
      cases hfile with
      | some hfg =>
          cases hs : (joinChild s
              (endState (testProcess x (runNested x) tc tfun i (unharmed s)))).proc.getPipe with
          | none =>
              rw [hs] at hjoin
              cases hjoin
          | some f' =>
              rw [hs] at hjoin
              cases hjoin with
              | some hfg' =>
                  refine ⟨fun m hm => hfg'.limited m (List.mem_append_right _ hm), ?_⟩
                  rw [show (s.proc.join _).getPipe = some f' from hs]
                  simp [hfg'.content, hfg.content, encodeAll]

/-- The parent of a child that ended after the messages `pre`: they are in its
message file, and the history of the child is in its own. -/
def bereaved {ν : Type} (pre : List SendMsg) (hist : List (Nat × Obs)) (s : St CkList UInt8 ν) :
    St CkList UInt8 ν :=
  s.onProc fun p => { p.fwrite (encodeAll pre) with hist := hist }

theorem Limited.append {maxMsg : Nat} {ms ms' : List SendMsg} (h : Limited maxMsg ms)
    (h' : Limited maxMsg ms') : Limited maxMsg (ms ++ ms') :=
  List.forall_mem_append.mpr ⟨h, h'⟩

theorem encodeAll_append (ms ms' : List SendMsg) :
    encodeAll (ms ++ ms') = encodeAll ms ++ encodeAll ms' := by
  simp [encodeAll]

/-- What the file of such a parent holds. -/
theorem pipeHolds_bereaved {cfg : Config} {s : St CkList UInt8 ν} {old pre : List SendMsg}
    (h : PipeHolds cfg s.proc old) (hpre : Limited cfg.maxMsg pre) (hist : List (Nat × Obs)) :
    PipeHolds cfg (bereaved pre hist s).proc (old ++ pre) := by
  obtain ⟨f, hf, hc⟩ := Option.map_eq_some_iff.mp h.content
  have hlim := h.limited.append hpre
  cases h2 : s.proc.sendFile2 with
  | some g =>
      obtain rfl : g = f := by simpa only [Proc.getPipe, h2, Option.some.injEq] using hf
      refine ⟨⟨?_, ?_⟩, hlim, ?_⟩
      · intro f1 hf1
        refine h.legible.file1 f1 ?_
        simpa [bereaved, St.onProc, Proc.fwrite, h2] using hf1
      · intro f2 hf2
        refine ⟨old ++ pre, hlim, ?_⟩
        have hf2 : { g with content := g.content ++ encodeAll pre } = f2 := by
          simpa [bereaved, St.onProc, Proc.fwrite, h2] using hf2
        rw [← hf2, encodeAll_append, ← hc]
      · simp [bereaved, St.onProc, Proc.fwrite, Proc.getPipe, h2, encodeAll_append, hc]
  | none =>
      have h1 : s.proc.sendFile1 = some f := by simpa only [Proc.getPipe, h2] using hf
      refine ⟨⟨?_, ?_⟩, hlim, ?_⟩
      · intro f1 hf1
        refine ⟨old ++ pre, hlim, ?_⟩
        have hf1 : { f with content := f.content ++ encodeAll pre } = f1 := by
          simpa [bereaved, St.onProc, Proc.fwrite, h2, h1] using hf1
        rw [← hf1, encodeAll_append, ← hc]
      · intro f2 hf2
        simp [bereaved, St.onProc, Proc.fwrite, h2] at hf2
      · simp [bereaved, St.onProc, Proc.fwrite, Proc.getPipe, h2, h1, encodeAll_append, hc]

/-- **Which deaths of a test process the runner survives**: it goes on to the
next test, with a result for this one, if and only if there is a context in its
message file — the child has sent its first message, or an unchecked teardown
has left one — and no negative duration.  Otherwise it exits itself. -/
theorem child_death_survived_iff {x : Ctx} {s : St CkList UInt8 NestedRun}
    {old ms pre : List SendMsg}
    {tc : TCaseId} {tfun : TF NestedRun} {i : Int} (h1 : s.proc.sendFile1.isSome)
    (hsr : forkStatusOf x.env s.sr.fstat = .fork) (hlog : s.sr.loglst = true)
    (hpipe : PipeHolds x.cfg s.proc old) (hold : ∀ m ∈ old, ValidMsg m)
    (hsent : ChildSends x tc tfun i s ms) (hpre : pre <+: ms) (hist : List (Nat × Obs))
    (status : WaitStatus) :
    (∃ tr s', afterWaitpid x tc tfun i status (bereaved pre hist s) = .ok () s' ∧
      s'.sr.resultlst.elems = s.sr.resultlst.elems ++ [tr] ∧
      tr.tcname = some (s.heap.tcName tc) ∧ tr.tname = some tfun.ttest.name ∧ tr.iter = i) ↔
      ((∃ c, .ctx c ∈ old) ∨ pre ≠ []) ∧ ∀ m ∈ old ++ pre, m.NonNeg := by
  have hstream := childSends_valid h1 hsr hsent
  have hp : s.proc.getPipe.isSome := by
    rw [← Option.isSome_map, hpipe.content, Option.isSome_some]
  have hlim : Limited x.cfg.maxMsg pre := fun m hm => (hsent.written hp).1 m (hpre.subset hm)
  obtain ⟨t, f, hst, hf, hc⟩ := (pipeHolds_bereaved hpipe hlim hist).exists_stRel
  have hvalid : ∀ m ∈ old ++ pre, ValidMsg m :=
    List.forall_mem_append.mpr ⟨hold, fun m hm => hstream.valid m (hpre.subset hm)⟩
  -- the first message of the child is a context
  have hctx : (∃ c, .ctx c ∈ old ++ pre) ↔ (∃ c, .ctx c ∈ old) ∨ pre ≠ [] := by
    constructor
    · rintro ⟨c, hc⟩
      rcases List.mem_append.mp hc with h | h
      · exact .inl ⟨c, h⟩
      · exact .inr (List.ne_nil_of_mem h)
    · rintro (⟨c, h⟩ | hne)
      · exact ⟨c, List.mem_append_left _ h⟩
      · obtain ⟨m, rest, rfl⟩ := List.exists_cons_of_ne_nil hne
        obtain ⟨tail, rfl⟩ := hpre
        have hhead := hstream.head.resolve_left (by simp)
        simp only [List.cons_append, List.head?_cons, Option.some.injEq] at hhead
        exact ⟨.setup, by simp [hhead]⟩
  have hlog' : t.sr.loglst = true := by
    cases hst with
    | mk _ _ => exact hlog
  have hmachine := afterWaitpid_messages (x := x) hf hlog' tc tfun i status
  have hcond : (((∃ c, .ctx c ∈ old) ∨ pre ≠ []) ∧ ∀ m ∈ old ++ pre, m.NonNeg) ↔
      (∀ m ∈ f.content, m.NonNeg) ∧ (received rcvmsgCreate f.content).lastctx ≠ .invalid := by
    rw [hc, lastctx_ne_invalid_iff hvalid, hctx, and_comm]
  have hsim := sim_afterWaitpid x tc tfun i status
  rw [hcond]
  constructor
  · rintro ⟨tr, s', hs', -⟩
    refine Classical.byContradiction fun hno => ?_
    rw [if_neg hno] at hmachine
    obtain ⟨t', ht'⟩ := hmachine
    obtain ⟨s'', hs'', -⟩ := hsim.to_error hst ht'
    rw [hs'] at hs''
    cases hs''
  · intro h
    rw [if_pos h] at hmachine
    obtain ⟨tr, t', ht', hres, hnames⟩ := hmachine
    obtain ⟨s', hs', hst'⟩ := hsim.to_ok hst ht'
    refine ⟨tr, s', hs', ?_, ?_⟩
    · cases hst with
      | mk _ _ =>
          cases hst' with
          | mk _ _ => exact hres
    · cases hst with
      | mk _ _ => exact hnames

/-- A runner in `CK_FORK` mode with its loggers, about to run a test. -/
def Sample.logging : St CkList UInt8 NestedRun :=
  { Sample.forking with sr := { Sample.forking.sr with loglst := true } }

/-- The messages of a test that fails. -/
theorem Sample.childSends_exitTest :
    ChildSends Sample.ctx 0 (Sample.exitTest 0 0) 0 Sample.logging
      [.ctx .setup, .ctx .test, .loc (some (.lit "t.c")) 7, .loc (some (.lit "t.c")) 7,
        .fail (some (.lit "x == y"))] := by
  refine ⟨Sample.logging.abs (some ⟨0, []⟩) none, .mk _ (.some ?_) .none, ?_⟩
  · exact fileRel_nil 0
  · unfold Shared
    decide +kernel

/-- A test process that was killed before the test function was called. -/
theorem child_death_survived_iff_setup :
    ∃ tr s', afterWaitpid Sample.ctx 0 (Sample.exitTest 0 0) 0 (.signaled ⟨9, by decide⟩)
        (bereaved [.ctx .setup] [] Sample.logging) = .ok () s' ∧
      s'.sr.resultlst.elems = Sample.logging.sr.resultlst.elems ++ [tr] ∧
      tr.tcname = some (Sample.logging.heap.tcName 0) ∧
      tr.tname = some (Sample.exitTest 0 0).ttest.name ∧ tr.iter = 0 := by
  have hpipe : PipeHolds Sample.cfg Sample.logging.proc [] :=
    Sample.pipeHolds_running [(⟨fun _ => [], [], none⟩ : Sample.Case NestedRun)] .fork
  refine (child_death_survived_iff (x := Sample.ctx) (s := Sample.logging) rfl rfl rfl hpipe
    (fun _ hm => absurd hm List.not_mem_nil) Sample.childSends_exitTest ?_ [] _).mpr
      ⟨.inr (List.cons_ne_nil _ _), by decide⟩
  decide

/-- A test process that is killed before its first message takes the runner with
it. -/
theorem child_death_before_first_message :
    ChildSends Sample.ctx 0 (Sample.exitTest 0 0) 0 Sample.logging
      [.ctx .setup, .ctx .test, .loc (some (.lit "t.c")) 7, .loc (some (.lit "t.c")) 7,
        .fail (some (.lit "x == y"))] ∧
    ∃ s', afterWaitpid Sample.ctx 0 (Sample.exitTest 0 0) 0 (.signaled ⟨9, by decide⟩)
      (bereaved [] [] Sample.logging) = .error (.exited 2) s' := by
  have hstop : (stopped (afterWaitpid Sample.ctx 0 (Sample.exitTest 0 0) 0
      (.signaled ⟨9, by decide⟩) (bereaved [] [] Sample.logging))).map Prod.fst =
        some (.exited 2) := by
    decide +kernel
  obtain ⟨e, s', hs', rfl⟩ := error_of_stopped hstop
  exact ⟨Sample.childSends_exitTest, s', hs'⟩

end LibCheck
