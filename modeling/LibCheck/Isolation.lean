import LibCheck.Fixtures
import LibCheck.Located
import LibCheck.Script

/-!
# LibCheck.Isolation

What a test process is to do, and what becomes of it.

* `TestCode.script` — the script of a test process, read off the functions of its test.
* `plays_testProcess` — a test process plays it.
* `TestCode.result` — the result of a test, from its script and from when it is killed.
* `tcaseRunTfunFork_result` — it is what the runner records.
-/

namespace LibCheck

open Prog Script

variable {ν : Type}

/-! ## scripts -/

/-- The reason for a stop with the wait status. -/
def WaitStatus.stop : WaitStatus → Stop
  | .exited code => .exited code
  | .signaled sig => .signaled sig

/-- A process is refused a message by `ppack`, and ends with `exit(2)`. -/
def rules (cfg : Config) : Rules SendMsg Signal WaitStatus := ⟨fits cfg, .exited 2, .signaled⟩

@[simp] theorem rules_accepts (cfg : Config) (m : SendMsg) :
    (rules cfg).accepts m = fits cfg m := rfl

@[simp] theorem rules_refused (cfg : Config) : (rules cfg).refused = .exited 2 := rfl

/-- What a function does in a process of its own; it makes no calls. -/
def funScript (cfg : Config) : List (Act ν) → List (Step SendMsg WaitStatus)
  | [] => []
  | .markPoint loc :: acts => .send loc.msg :: funScript cfg acts
  | .assertFailed loc expr msg :: _ =>
      [.send loc.msg, .send (.fail (some (failureText cfg expr msg))), .stop (.exited 1)]
  | .exit status :: _ => [.pass, .stop (.exited (exitCode status))]
  | .raise sig :: _ => [.stop (.signaled sig)]
  | .call _ :: _ => []

/-- What the process of a test does that lasts `d` microseconds. -/
def TestCode.script (cfg : Config) (d : Int32) (t : TestCode ν) : List (Step SendMsg WaitStatus) :=
  (.send (.ctx .setup) :: t.setups.flatMap fun f => funScript cfg (f.sfun.acts t.now)) ++
    ((.send (.ctx .test) :: .send t.tfun.ttest.loc.msg :: funScript cfg t.body) ++
      ((t.teardowns.flatMap fun f => .send (.ctx .teardown) :: funScript cfg (f.sfun.acts t.now)) ++
        [.send (.duration d), .pass]))

/-! ## playing a script -/

/-- From `s` to `s'`, nothing happened but that messages were sent and that time
passed. -/
structure Spoke (ms : List SendMsg) (s s' : St List SendMsg ν) : Prop where
  memory : s'.memory = s.memory
  fstat : s'.proc.fstat = s.proc.fstat
  files : SentTo s.proc ms s'.proc

theorem SentTo.refl (p : Proc SendMsg) : SentTo p [] p := by
  cases h2 : p.sendFile2 <;> cases h1 : p.sendFile1 <;> simp [SentTo, Proc.fwrite, h1, h2]

theorem SentTo.trans {p q q' : Proc SendMsg} {ms ms' : List SendMsg} (h : SentTo p ms q)
    (h' : SentTo q ms' q') : SentTo p (ms ++ ms') q' := by
  obtain ⟨h1, h2⟩ := h
  obtain ⟨h1', h2'⟩ := h'
  cases e2 : p.sendFile2 <;> cases e1 : p.sendFile1 <;>
    simp_all [SentTo, Proc.fwrite]

namespace Spoke

variable {ms ms' : List SendMsg} {s s' s'' : St List SendMsg ν}

theorem now (h : Spoke ms s s') : s'.now = s.now := congrArg (fun m => m.2.2) h.memory

theorem heap (h : Spoke ms s s') : s'.heap = s.heap := congrArg (fun m => m.1) h.memory

protected theorem refl (s : St List SendMsg ν) : Spoke [] s s := ⟨rfl, rfl, .refl _⟩

theorem trans (h : Spoke ms s s') (h' : Spoke ms' s' s'') : Spoke (ms ++ ms') s s'' :=
  ⟨h'.memory.trans h.memory, h'.fstat.trans h.fstat, h.files.trans h'.files⟩

end Spoke

/-- From the state `s`, `y` plays the script, and returns `a` if the script does not end
the process. -/
def Plays (x : Ctx) (ks : List (Step SendMsg WaitStatus)) (a : α) (y : RunM List SendMsg ν α)
    (s : St List SendMsg ν) : Prop :=
  ∃ s', Spoke (play (rules x.cfg) s.proc.killIn ks).1 s s' ∧
    match (play (rules x.cfg) s.proc.killIn ks).2 with
    | .ok k => y s = .ok a s' ∧ s'.proc.killIn = k
    | .error e => y s = .error e.stop s'

section

variable {x : Ctx} {call : ν → RunM List SendMsg ν Unit} {s : St List SendMsg ν}
  {ks ks' : List (Step SendMsg WaitStatus)} {y : RunM List SendMsg ν α}

theorem Plays.bind {f : α → RunM List SendMsg ν γ} {a : α} {c : γ}
    (h : Plays x ks a y s) (h' : ∀ ms s1, Spoke ms s s1 → Plays x ks' c (f a) s1) :
    Plays x (ks ++ ks') c (y >>= f) s := by
  obtain ⟨s1, hs1, hy⟩ := h
  rw [Plays, play_append]
  cases hp : (play (rules x.cfg) s.proc.killIn ks).2 with
  | error e =>
      rw [hp] at hy
      exact ⟨s1, hs1, bind_of_error f hy⟩
  | ok k =>
      rw [hp] at hy
      obtain ⟨hy, hk⟩ := hy
      obtain ⟨s2, hs2, hf⟩ := h' _ s1 hs1
      rw [hk] at hs2 hf
      refine ⟨s2, hs1.trans hs2, ?_⟩
      simpa only [bind_of_ok f hy] using hf

theorem Plays.congr {y' : RunM List SendMsg ν α} {a : α} (h : y s = y' s) (hy : Plays x ks a y' s) :
    Plays x ks a y s := by
  rwa [Plays, h]

/-- A script that is empty. -/
theorem Plays.pure (a : α) : Plays x [] a (pure a) s := ⟨s, .refl s, rfl, rfl⟩

/-- A change of the state that cannot be seen from outside. -/
theorem Plays.of_update {a : α}
    {g : St List SendMsg ν → St List SendMsg ν} (hg : Spoke [] s (g s))
    (hkill : (g s).proc.killIn = s.proc.killIn)
    (h : Plays x ks a y (g s)) : Plays x ks a (update g >>= fun _ => y) s := by
  rw [Plays, hkill] at h
  obtain ⟨s', hs', hy⟩ := h
  exact ⟨s', hg.trans hs', hy⟩

theorem Plays.of_read {p : St List SendMsg ν → γ} {f : γ → RunM List SendMsg ν α} {a : α}
    (h : Plays x ks a (f (p s)) s) : Plays x ks a (read p >>= f) s := h

theorem spoke_killIn (k : Option (Nat × Signal)) (s : St List SendMsg ν) :
    Spoke [] s (s.onProc fun p => { p with killIn := k }) :=
  ⟨rfl, rfl, (SentTo.refl s.proc).1, (SentTo.refl s.proc).2⟩

/-- A point where the process may be killed. -/
theorem plays_killPoint : Plays x [.pass] () killPoint s := by
  rw [Plays]
  match hk : s.proc.killIn with
  | none => exact ⟨s, .refl s, by simp [play, burn, killPoint, read_bind, hk]⟩
  | some (0, sig) =>
      refine ⟨s, .refl s, ?_⟩
      simp only [play, burn, killPoint, read_bind, hk]
      rfl
  | some (n + 1, sig) =>
      refine ⟨s.onProc fun p => { p with killIn := some (n, sig) }, spoke_killIn _ s, ?_⟩
      simp [play, burn, killPoint, read_bind, hk, St.onProc]

theorem spoke_observe (o : Obs) (s : St List SendMsg ν) :
    Spoke [] s (s.onProc (Proc.observe x.lvl o)) :=
  ⟨rfl, rfl, (SentTo.refl s.proc).1, (SentTo.refl s.proc).2⟩

/-- A message. -/
theorem plays_sendMsg (hp : s.proc.getPipe.isSome) (m : SendMsg) :
    Plays x [.send m] () (sendMsg x m) s := by
  obtain ⟨s1, hs1, hpoint⟩ := plays_killPoint (x := x) (s := s)
  cases hb : burn (rules x.cfg) s.proc.killIn with
  | error e =>
      simp only [play, hb] at hs1 hpoint
      refine ⟨s1, by simpa only [play, hb] using hs1, ?_⟩
      simp only [play, hb]
      exact bind_of_error _ hpoint
  | ok k =>
      simp only [play, hb] at hs1 hpoint
      obtain ⟨hpoint, hk⟩ := hpoint
      have hp1 : s1.proc.getPipe.isNone = false := by
        rw [Option.isNone_eq_false_iff]
        exact hs1.files.isSome_getPipe hp
      have hsend : sendMsg x m s = if fits x.cfg m then .ok () (s1.onProc (Proc.fwrite [m]))
          else .error (.exited 2) s1 := by
        rw [sendMsg, bind_of_ok _ hpoint, read_bind, hp1, if_neg (by decide)]
        have hpack : (Wire.ppack x.cfg m : Except EPrintf (List SendMsg)) =
            (ppack x.cfg.sz x.cfg.maxMsg m).map fun _ => [m] := rfl
        rw [hpack]
        unfold fits
        cases ppack x.cfg.sz x.cfg.maxMsg m <;> rfl
      rw [Plays, hsend]
      cases hm : fits x.cfg m with
      | false =>
          refine ⟨s1, ?_⟩
          simpa [play, hb, hm, WaitStatus.stop] using hs1
      | true =>
          have hw := wrote_fwrite [m] s1
          refine ⟨s1.onProc (Proc.fwrite [m]), ?_⟩
          simp only [play, hb, rules_accepts, hm, if_true]
          exact ⟨hs1.trans ⟨hw.memory, hw.fstat, hw.file1, hw.file2⟩, trivial, hw.killIn.trans hk⟩

/-- The end of a process. -/
theorem plays_throw (a : α) (e : WaitStatus) (h : y s = .error e.stop s) :
    Plays x [.stop e] a y s :=
  ⟨s, .refl s, h⟩

/-! ## functions -/

/-- An assertion that fails ends the process: what would be done next does not matter. -/
theorem plays_ckAssertFailed (hp : s.proc.getPipe.isSome) (hf : s.proc.fstat = .fork) (loc : SrcLoc)
    (expr : CStr) (msg : Option CStr) (a : α) (y : RunM List SendMsg ν α) :
    Plays x [.send loc.msg, .send (.fail (some (failureText x.cfg expr msg))), .stop (.exited 1)] a
      (ckAssertFailed x loc expr msg >>= fun _ => y) s := by
  simp only [ckAssertFailed, bind_assoc]
  refine Plays.of_update (spoke_observe (.assertFailed ⟨loc, expr, msg⟩) s) rfl ?_
  have hp : (s.onProc (Proc.observe x.lvl (.assertFailed ⟨loc, expr, msg⟩))).proc.getPipe.isSome :=
    hp
  refine (plays_sendMsg hp loc.msg).bind fun ms s1 h1 => ?_
  refine (plays_sendMsg (h1.files.isSome_getPipe hp) _).bind fun ms' s2 h2 => plays_throw a _ ?_
  have hf2 : s2.proc.fstat = .fork := (h2.fstat.trans h1.fstat).trans hf
  rw [read_bind, hf2]
  rfl

variable (call) in
/-- A function in a process of its own. -/
theorem plays_runFun (hp : s.proc.getPipe.isSome) (hf : s.proc.fstat = .fork) {acts : List (Act ν)}
    (hcalls : NoCalls acts) : Plays x (funScript x.cfg acts) false (runFun x call acts) s := by
  induction acts generalizing s with
  | nil => exact .pure false
  | cons act acts ih =>
      have hrest : NoCalls acts := fun c hc => hcalls c (List.mem_cons_of_mem _ hc)
      cases act with
      | markPoint loc =>
          exact (plays_sendMsg hp loc.msg).bind fun ms s1 h1 =>
            ih (h1.files.isSome_getPipe hp) (h1.fstat.trans hf) hrest
      | assertFailed loc expr msg => exact plays_ckAssertFailed hp hf loc expr msg false _
      | exit status => exact plays_killPoint.bind fun ms s1 h1 => plays_throw false _ rfl
      | raise sig => exact plays_throw false (.signaled sig) rfl
      | call c => exact absurd List.mem_cons_self (hcalls c)

theorem Plays.unprotected {y : RunM List SendMsg ν Bool} (h : Plays x ks false y s) :
    Plays x ks () (unprotected y) s := by
  have hall : Plays x (ks ++ []) () (LibCheck.unprotected y) s := h.bind fun _ _ _ => .pure ()
  rwa [List.append_nil] at hall

variable (call) in
theorem plays_callFixture (hp : s.proc.getPipe.isSome) (hf : s.proc.fstat = .fork)
    (fl : FixtureList) {f : Fixture ν} (hcalls : NoCalls (f.sfun.acts s.now)) :
    Plays x (funScript x.cfg (f.sfun.acts s.now)) false (callFixture x call fl f) s :=
  .of_update (spoke_observe _ s) rfl (.of_read
    (plays_runFun (s := s.onProc (Proc.observe x.lvl (.fixture fl f.sfun.addr))) call hp hf hcalls))

variable (call) in
theorem plays_callTest (hp : s.proc.getPipe.isSome) (hf : s.proc.fstat = .fork) {t : TestCode ν}
    (hnow : s.now = t.now) (hcalls : NoCalls t.body) :
    Plays x (.send (.ctx .test) :: .send t.tfun.ttest.loc.msg :: funScript x.cfg t.body) false
      (callTest x call t.tfun t.iter) s := by
  unfold callTest
  refine (plays_sendMsg hp (.ctx .test)).bind fun ms s1 h1 => ?_
  have hp1 := h1.files.isSome_getPipe hp
  refine (plays_sendMsg hp1 t.tfun.ttest.loc.msg).bind fun ms' s2 h2 => ?_
  refine .of_update (spoke_observe _ s2) rfl (.of_read ?_)
  have hnow2 : s2.now = t.now := (h2.now.trans h1.now).trans hnow
  have hbody : t.tfun.ttest.fn t.iter s2.now = t.body := by rw [hnow2, TestCode.body]
  show Plays x _ false (runFun x call (t.tfun.ttest.fn t.iter s2.now)) _
  rw [hbody]
  exact plays_runFun (s := s2.onProc (Proc.observe x.lvl (.body t.tfun.ttest.name t.iter))) call
    (h2.files.isSome_getPipe hp1) ((h2.fstat.trans h1.fstat).trans hf) hcalls

/-! ## test processes -/

/-- What each of them plays, the elements of a list play one after the other. -/
theorem findSomeM_plays {xs : List γ} (script : γ → List (Step SendMsg WaitStatus))
    {body : γ → RunM List SendMsg ν (Option α)}
    (h : ∀ c ∈ xs, ∀ ms s1, Spoke ms s s1 → Plays x (script c) none (body c) s1) :
    Plays x (xs.flatMap script) none (xs.findSomeM? body) s := by
  induction xs generalizing s with
  | nil => exact .pure none
  | cons c xs ih =>
      rw [List.flatMap_cons, List.findSomeM?]
      refine (h c List.mem_cons_self [] s (.refl s)).bind fun ms s1 h1 => ?_
      exact ih fun c' hc' ms' s2 h2 => h c' (List.mem_cons_of_mem c hc') _ _ (h1.trans h2)

variable (call) in
/-- The checked setups in a process of their own. -/
theorem plays_tcaseRunCheckedSetup {now : When} {fs : List (Fixture ν)}
    (hcalls : ∀ f ∈ fs, NoCalls (f.sfun.acts now)) {tc : TCaseId}
    (hset : s.heap.lists (.fixtures .chSflst tc) = fs) (hnow : s.now = now)
    (hp : s.proc.getPipe.isSome) (hf : s.proc.fstat = .fork)
    (hsr : forkStatusOf x.env s.sr.fstat = .fork) :
    Plays x (.send (.ctx .setup) :: fs.flatMap fun f => funScript x.cfg (f.sfun.acts now)) none
      (tcaseRunCheckedSetup x call tc) s := by
  refine .of_read (.of_read ?_)
  rw [srunnerRunSetup, hsr, if_pos rfl]
  refine (plays_sendMsg hp (.ctx .setup)).bind fun ms s1 h1 => ?_
  have hset1 : s1.heap.lists (.fixtures .chSflst tc) = fs := by
    rw [h1.heap]
    exact hset
  refine .congr (forList_of_lists hset1 _) ?_
  refine findSomeM_plays _ fun f hfm ms' s2 h2 => ?_
  have h := h1.trans h2
  have hnow2 : s2.now = now := h.now.trans hnow
  subst hnow2
  rw [runSetup, if_neg (by decide)]
  have hone := (plays_callFixture (x := x) call (h.files.isSome_getPipe hp) (h.fstat.trans hf)
    .chSflst
    (hcalls f hfm)).unprotected
  have hall : Plays x (funScript x.cfg (f.sfun.acts s2.now) ++ []) (none : Option TestResult)
      (unprotected (callFixture x call .chSflst f) >>= fun _ => pure none) s2 :=
    hone.bind fun _ _ _ => .pure none
  rwa [List.append_nil] at hall

variable (call) in
/-- The checked teardowns in a process of their own. -/
theorem plays_tcaseRunCheckedTeardown {now : When} {fs : List (Fixture ν)}
    (hcalls : ∀ f ∈ fs, NoCalls (f.sfun.acts now)) {tc : TCaseId}
    (htear : s.heap.lists (.fixtures .chTflst tc) = fs) (hnow : s.now = now)
    (hp : s.proc.getPipe.isSome) (hf : s.proc.fstat = .fork) :
    Plays x (fs.flatMap fun f => .send (.ctx .teardown) :: funScript x.cfg (f.sfun.acts now)) ()
      (tcaseRunCheckedTeardown x call tc) s := by
  have hwalk : Plays x
      (fs.flatMap fun f => .send (.ctx .teardown) :: funScript x.cfg (f.sfun.acts now)) none
      (forList x (.fixtures .chTflst tc) (runTeardown x call .chTflst .nofork)) s := by
    refine .congr (forList_of_lists htear _) (findSomeM_plays _ fun f hfm ms s1 h1 => ?_)
    have hnow1 : s1.now = now := h1.now.trans hnow
    subst hnow1
    refine (plays_sendMsg (h1.files.isSome_getPipe hp) (.ctx .teardown)).bind fun ms' s2 h2 => ?_
    have h := h1.trans h2
    rw [if_pos rfl, ← h2.now]
    have hone : Plays x _ false (protect x (callFixture x call .chTflst f)) s2 :=
      .of_update ⟨rfl, rfl, (SentTo.refl s2.proc).1, (SentTo.refl s2.proc).2⟩ rfl
        (plays_callFixture (s := s2.onProc fun p => { p with errorJmpBuffer := some x.lvl }) call
          (h.files.isSome_getPipe hp) (h.fstat.trans hf) .chTflst (h2.now ▸ hcalls f hfm))
    have hall : Plays x (funScript x.cfg (f.sfun.acts s2.now) ++ []) none
        (protect x (callFixture x call .chTflst f) >>= fun b =>
          if b then pure (some ()) else pure none) s2 :=
      hone.bind fun _ _ _ => .pure none
    rwa [List.append_nil] at hall
  have hall : Plays x (_ ++ []) () (tcaseRunCheckedTeardown x call tc) s :=
    hwalk.bind fun _ _ _ => .pure ()
  rwa [List.append_nil] at hall

variable (call) in
/-- **A test process** plays the script of its test. -/
theorem plays_testProcess {t : TestCode ν} (hcalls : t.CallFree) {tc : TCaseId}
    (hcode : testCode s.heap tc t.tfun t.iter s.now = t) (hp : s.proc.getPipe.isSome)
    (hf : s.proc.fstat = .fork) (hsr : forkStatusOf x.env s.sr.fstat = .fork) :
    Plays x (t.script x.cfg (testDuration x t.now)) () (testProcess x call tc t.tfun t.iter) s := by
  have hset : s.heap.lists (.fixtures .chSflst tc) = t.setups := congrArg TestCode.setups hcode
  have htear : s.heap.lists (.fixtures .chTflst tc) = t.teardowns :=
    congrArg TestCode.teardowns hcode
  have hnow : s.now = t.now := congrArg TestCode.now hcode
  unfold testProcess TestCode.script
  refine (plays_tcaseRunCheckedSetup call hcalls.setups hset hnow hp hf hsr).bind
    fun ms1 s1 h1 => ?_
  have hp1 := h1.files.isSome_getPipe hp
  have hf1 := h1.fstat.trans hf
  refine (plays_callTest call hp1 hf1 (h1.now.trans hnow) hcalls.body).unprotected.bind
    fun ms2 s2 h2 => ?_
  have hp2 := h2.files.isSome_getPipe hp1
  have hnow2 : s2.now = t.now := (h2.now.trans h1.now).trans hnow
  refine (plays_tcaseRunCheckedTeardown call hcalls.teardowns
    (by rw [h2.heap, h1.heap]; exact htear) hnow2 hp2 (h2.fstat.trans hf1)).bind
    fun ms3 s3 h3 => .of_read ?_
  rw [h3.now, hnow2]
  exact (plays_sendMsg (h3.files.isSome_getPipe hp2) _).bind fun _ _ _ => plays_killPoint

/-! ## results -/

/-- The wait status of a process that has ended so. -/
def waitStatus : Except WaitStatus (Option (Nat × Signal)) → WaitStatus
  | .ok _ => .exited 0
  | .error status => status

/-- The messages of a test process, and how it ends. -/
def TestCode.played (x : Ctx) (t : TestCode ν) :
    List SendMsg × Except WaitStatus (Option (Nat × Signal)) :=
  play (rules x.cfg) (x.env.kill t.now) (t.script x.cfg (testDuration x t.now))

/-- The result of a test in a process of its own. -/
def TestCode.result (x : Ctx) (tcname : CStr) (t : TestCode ν) : TestResult :=
  let status := waitStatus (t.played x).2
  setForkInfo x.cfg (x.env.alarm t.now)
    { constructTestResult (received rcvmsgCreate
      (t.played x).1) (waserror status t.tfun.signal) with
      tcname := some tcname
      tname := some t.tfun.ttest.name
      iter := t.iter }
    status t.tfun.signal t.tfun.allowedExitValue

/-- The parent waits for a process that plays a script. -/
theorem forkChild_of_plays {p : RunM List SendMsg ν Unit} (h : Plays x ks () p (forked x s)) :
    ∃ c, forkChild x p s =
        .ok (waitStatus (play (rules x.cfg) (x.env.kill s.now) ks).2) (joinChild s c) ∧
      SentTo s.proc (play (rules x.cfg) (x.env.kill s.now) ks).1 c.proc := by
  obtain ⟨c, hc, hrun⟩ := h
  refine ⟨c, ?_, hc.files.congr rfl rfl⟩
  have hrun : match (play (rules x.cfg) (x.env.kill s.now) ks).2 with
      | .ok k => p (s.onProc fun q => { q with killIn := x.env.kill s.now }) = .ok () c ∧
          c.proc.killIn = k
      | .error e => p (s.onProc fun q => { q with killIn := x.env.kill s.now }) = .error e.stop c :=
    hrun
  unfold forkChild
  cases hp : (play (rules x.cfg) (x.env.kill s.now) ks).2 with
  | ok k =>
      rw [hp] at hrun
      rw [hrun.1]
      rfl
  | error e =>
      rw [hp] at hrun
      rw [hrun]
      cases e <;> rfl

/-- What a function sends. -/
theorem sendable_funScript {cfg : Config} {acts : List (Act ν)} {m : SendMsg}
    (h : .send m ∈ funScript cfg acts) : m.NonNeg ∧ m ≠ .ctx .invalid := by
  induction acts with
  | nil => simp [funScript] at h
  | cons act acts ih =>
      cases act with
      | markPoint loc =>
          rcases List.mem_cons.mp h with h | h
          · cases h
            exact ⟨loc.nonNeg_msg, by simp [SrcLoc.msg]⟩
          · exact ih h
      | assertFailed loc expr msg =>
          have hm : m = loc.msg ∨ m = .fail (some (failureText cfg expr msg)) := by
            simpa [funScript] using h
          rcases hm with rfl | rfl
          · exact ⟨loc.nonNeg_msg, by simp [SrcLoc.msg]⟩
          · exact ⟨trivial, by simp⟩
      | exit status => simp [funScript] at h
      | raise sig => simp [funScript] at h
      | call c => simp [funScript] at h

/-- What a test process sends can be received. -/
theorem TestCode.sendable_script {cfg : Config} {d : Int32} (hd : 0 ≤ d.toInt) {t : TestCode ν}
    {m : SendMsg} (h : .send m ∈ t.script cfg d) : m.NonNeg ∧ m ≠ .ctx .invalid := by
  simp only [script, List.mem_append, List.mem_cons, List.mem_flatMap, Step.send.injEq,
    reduceCtorEq, List.not_mem_nil, or_false] at h
  obtain (rfl | ⟨f, -, h⟩) | (rfl | rfl | h) | ⟨f, -, rfl | h⟩ | rfl := h
  · exact ⟨trivial, by decide⟩
  · exact sendable_funScript h
  · exact ⟨trivial, by decide⟩
  · exact ⟨t.tfun.ttest.loc.nonNeg_msg, by simp [SrcLoc.msg]⟩
  · exact sendable_funScript h
  · exact ⟨trivial, by decide⟩
  · exact sendable_funScript h
  · exact ⟨hd, by simp⟩

/-- What a test process sends begins with its context, if it is not killed before. -/
theorem TestCode.played_setup {x : Ctx} {t : TestCode ν} (hfits : fits x.cfg (.ctx .setup) = true)
    (hkill : ∀ sig, x.env.kill t.now ≠ some (0, sig)) :
    ∃ ms, (t.played x).1 = .ctx .setup :: ms := by
  have hburn : ∃ k, burn (rules x.cfg) (x.env.kill t.now) = .ok k := by
    cases hk : x.env.kill t.now with
    | none => exact ⟨none, rfl⟩
    | some p =>
        obtain ⟨n, sig⟩ := p
        cases n with
        | zero => exact absurd hk (hkill sig)
        | succ n => exact ⟨some (n, sig), rfl⟩
  obtain ⟨k, hk⟩ := hburn
  simp [TestCode.played, TestCode.script, play, hk, hfits]

/-- Of the messages that wait in the file, nothing shows in the result of a test process. -/
def RcvMsg.Blank (r : RcvMsg) : Prop :=
  r = rcvmsgCreate ∨ ∃ file line, r =
    { rcvmsgCreate with lastctx := .teardown, fixtureFile := file, fixtureLine := line }

theorem RcvMsg.Blank.updateCtx {r : RcvMsg} (h : r.Blank) :
    rcvmsgUpdateCtx r .setup = rcvmsgUpdateCtx rcvmsgCreate .setup := by
  obtain rfl | ⟨file, line, rfl⟩ := h <;> rfl

/-- The runner is ready for the next test process. -/
structure Idle (s : St List SendMsg ν) : Prop where
  able : Able s
  blank : ∀ f, s.proc.getPipe = some f → (received rcvmsgCreate f.content).Blank

theorem isSome_sharedFile {f g : Option (Pipe SendMsg)} (h : f.isSome) :
    (sharedFile f g).isSome := by
  cases f with
  | none => cases h
  | some f =>
      cases g with
      | none => rfl
      | some g =>
          rw [sharedFile]
          split <;> rfl

/-- The current message file is empty. -/
def Emptied (s : St List SendMsg ν) : Prop := ∀ f, s.proc.getPipe = some f → f.content = []

theorem emptied_renew (s : St List SendMsg ν) : Emptied (s.onProc Proc.renew) := by
  intro f hf
  have hf : s.proc.renew.getPipe = some f := hf
  cases e1 : s.proc.sendFile1 <;> cases e2 : s.proc.sendFile2 <;>
    simp [Proc.getPipe, Proc.renew, Proc.openFile1, Proc.openFile2, e1, e2] at hf <;>
    simp [← hf]

theorem idle_renew (h1 : s.proc.sendFile1.isSome) (hkill : s.proc.killIn = none) :
    Idle (s.onProc Proc.renew) := by
  obtain ⟨hread, -, hfile⟩ := s.proc.renew_readable h1
  refine ⟨⟨?_, hfile, hread⟩, fun f hf => .inl ?_⟩
  · show s.proc.renew.killIn = none
    rw [Proc.renew]
    split <;> exact hkill
  · rw [emptied_renew s f hf]
    rfl

variable (call) in
/-- **A test in a process of its own** has the result of its script, whatever ends the
process. -/
theorem tcaseRunTfunFork_result {t : TestCode ν} (hcalls : t.CallFree) {tc : TCaseId}
    (hcode : testCode s.heap tc t.tfun t.iter s.now = t) (hf : s.proc.fstat = .fork)
    (hsr : forkStatusOf x.env s.sr.fstat = .fork) (hfits : fits x.cfg (.ctx .setup) = true)
    (hkill : ∀ sig, x.env.kill s.now ≠ some (0, sig)) (hd : 0 ≤ (testDuration x s.now).toInt)
    (hs : Idle s) :
    ∃ s', tcaseRunTfunFork x call tc t.tfun t.iter s = .ok (t.result x (s.heap.tcName tc)) s' ∧
      Idle s' ∧ s'.memory = s.memory ∧ s'.proc.fstat = s.proc.fstat := by
  have hnow : s.now = t.now := congrArg TestCode.now hcode
  obtain ⟨f, hp, hnn⟩ := hs.able.readable
  have hplays : Plays x _ () _ (forked x s) :=
    plays_testProcess (x := x) (s := forked x s) call hcalls hcode
      (by show s.proc.getPipe.isSome; rw [hp]; rfl) hf hsr
  obtain ⟨c, hchild, hsent⟩ := forkChild_of_plays hplays
  rw [hnow] at hchild hsent hkill hd
  -- what the receiver finds
  have hsendable : ∀ m ∈ (t.played x).1, m.NonNeg ∧ m ≠ .ctx .invalid := fun m hm =>
    TestCode.sendable_script hd (mem_of_mem_play hm)
  obtain ⟨ms, hms⟩ := TestCode.played_setup hfits hkill
  have hreceived : received rcvmsgCreate (f.content ++ (t.played x).1) =
      received rcvmsgCreate (t.played x).1 := by
    rw [received_append, hms, received_cons, received_cons]
    exact congrArg (received · ms) (hs.blank f hp).updateCtx
  have hctx : (received rcvmsgCreate (f.content ++ (t.played x).1)).lastctx ≠ .invalid := by
    rw [hreceived, hms, received_cons]
    exact received_lastctx_ne_invalid (by decide) fun m hm =>
      (hsendable m (hms ▸ List.mem_cons_of_mem _ hm)).2
  let s1 : St List SendMsg ν :=
    (joinChild s c).onProc fun p => { p with alarmReceived := x.env.alarm s.now }
  have hreceive : receiveTestResult x (waserror (waitStatus (t.played x).2) t.tfun.signal) s1 =
      .ok (constructTestResult (received rcvmsgCreate (t.played x).1)
        (waserror (waitStatus (t.played x).2) t.tfun.signal)) (s1.onProc Proc.renew) := by
    rw [← hreceived]
    exact receiveTestResult_of_nonNeg (s := s1) (hsent.join hp)
      (List.forall_mem_append.mpr ⟨hnn, fun m hm => (hsendable m hm).1⟩) hctx _
  have halarm : (s1.onProc Proc.renew).proc.alarmReceived = x.env.alarm t.now := by
    rw [← hnow]
    exact Proc.alarmReceived_renew s1.proc
  have hrun : tcaseRunTfunFork x call tc t.tfun t.iter s =
      .ok (t.result x (s.heap.tcName tc)) (s1.onProc Proc.renew) := by
    rw [tcaseRunTfunFork, bind_of_ok _ hchild, read_bind, update_bind, read_bind]
    refine (receiveResultInfoFork_of_ok hreceive ..).trans ?_
    rw [halarm]
    rfl
  refine ⟨_, hrun, idle_renew ?_ hs.able.killIn, rfl, ?_⟩
  · exact isSome_sharedFile hs.able.file1
  · exact (Proc.renew_readable _ (isSome_sharedFile hs.able.file1)).2.1

end

end LibCheck
