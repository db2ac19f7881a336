import LibCheck.Reentry
import LibCheck.Statics

/-!
# LibCheck.Signals

The signal dispositions of a run.

`srunner_run_tagged` installs its handlers and keeps the dispositions it found in
static variables, from which it restores them at its end.  A run that is made in
the same process in the meantime keeps the handlers there instead.

* `runNested_sigs` — what is left to be restored after a run inside a run.
* `dispositions_restored` — without one, a run restores what it found.
-/

namespace LibCheck

open Prog

/-- The handlers of a run. -/
def runHandlers : SigActions := ⟨.sigHandler, .sigHandler, .sigHandler⟩

/-- An event leaves the dispositions alone. -/
theorem keeps_watch_srunnerSendEvt {ν : Type} {x : Ctx} (obj : LogObj) (evt : ClEvent) :
    Keeps (St.watch Prod.snd) (srunnerSendEvt x obj evt : RunM List SendMsg ν Unit) := by
  intro w s hs
  cases hres : srunnerSendEvt x obj evt s with
  | error e s' => trivial
  | ok u s' =>
      obtain ⟨-, -, rfl⟩ := srunnerSendEvt_ok hres
      refine Eq.trans ?_ hs
      simp only [St.watch, St.memory, St.onProc, Proc.statics]
      rw [Proc.foldl_notify_eq]

/-- A run that returns, in terms of what happens between its two ends. -/
theorem srunnerRunTagged_sigs {ν : Type} {x : Ctx} {call : ν → RunM List SendMsg ν Unit}
    {a : RunArgs}
    {s s' : St List SendMsg ν} (h : srunnerRunTagged x call a s = .ok () s') :
    ∃ t t', runBody x call a t = .ok () t' ∧ t.proc.statics.2 = (runHandlers, s.proc.sigs) ∧
      s'.proc.sigs = t'.proc.oldSigs ∧ s'.proc.oldSigs = t'.proc.oldSigs := by
  rw [srunnerRunTagged_eq] at h
  obtain ⟨_, t, hsetup, h⟩ := bind_eq_ok.mp h
  obtain ⟨_, t', hbody, h⟩ := bind_eq_ok.mp h
  obtain ⟨_, t'', htear, h⟩ := bind_eq_ok.mp h
  cases h
  have hs : Keeps (fun s => s.proc.statics.2) (setupPipe : RunM List SendMsg ν Unit) :=
    Keeps.bind (Keeps.read _) fun _ => Keeps.ite (Keeps.update fun _ => rfl)
      (Keeps.bind (Keeps.read _) fun _ => Keeps.ite (Keeps.update fun _ => rfl) (Keeps.throw _))
  have ht : Keeps (fun s => s.proc.statics.2) (teardownPipe : RunM List SendMsg ν Unit) :=
    Keeps.bind (Keeps.read _) fun _ => Keeps.ite (Keeps.update fun _ => rfl)
      (Keeps.bind (Keeps.read _) fun _ => Keeps.ite (Keeps.update fun _ => rfl) (Keeps.throw _))
  have hold : t''.proc.oldSigs = t'.proc.oldSigs := congrArg Prod.snd (ht.of_ok htear)
  exact ⟨t, t', hbody, hs.of_ok hsetup, hold, hold⟩

/-- The parts of a run that leave the dispositions, and those to be restored, at
`v`. -/
abbrev SigsAt {ν : Type} (v : SigActions × SigActions) (y : RunM List SendMsg ν α) : Prop :=
  Maintains (fun s => s.proc.statics.2 = v) (fun _ _ => True) y

/-- A run between its two ends, if the runs that it makes leave them there. -/
theorem runClosed_sigs {ν : Type} {x : Ctx} {call : ν → RunM List SendMsg ν Unit}
    {v : SigActions × SigActions} (hcall : ∀ c, SigsAt v (call c)) :
    RunClosed x call fun {α} (y : RunM List SendMsg ν α) => SigsAt v y := by
  have hwatch : ∀ {α : Type} {y : RunM List SendMsg ν α}, Keeps (St.watch Prod.snd) y →
      SigsAt v y := fun hy => hy.maintains (I := fun w => w.2 = v)
  have hseq : SeqClosed fun {α} (y : RunM List SendMsg ν α) => SigsAt v y :=
    seqClosed_maintains fun _ _ _ _ => trivial
  exact
    { hseq with
      forList := fun _ _ hb s hs => Maintains.findSomeM (fun f _ => hb f) s hs
      fork := fun p _ => hwatch (keeps_watch_forkChild p)
      kill := hwatch keeps_watch_killPoint
      send := fun m => hwatch (keeps_watch_sendMsg m)
      receive := fun w => hwatch (keeps_watch_receiveTestResult w)
      assertion := fun _ => Maintains.update fun _ hs => hs
      fixture := fun _ _ => Maintains.update fun _ hs => hs
      body := fun _ _ => Maintains.update fun _ hs => hs
      setjmp := Maintains.update fun _ hs => hs
      alarm := fun _ => Maintains.update fun _ hs => hs
      call := hcall
      fstat := fun _ => Maintains.update fun _ hs => hs
      addFailure := fun _ _ => Maintains.update fun _ hs => hs
      occasion := fun _ => Maintains.update fun _ hs => hs
      iter := fun _ _ _ => Maintains.update fun _ hs => hs
      event := fun obj evt => hwatch (keeps_watch_srunnerSendEvt obj evt)
      tagLst := fun _ _ => Maintains.update fun _ hs => hs
      tcase := fun _ => Maintains.update fun _ hs => hs
      logs := fun _ => Maintains.update fun _ hs => hs
      loglst := fun _ => Maintains.update fun _ hs => hs }

theorem sigsAt_runBody {ν : Type} {x : Ctx} {call : ν → RunM List SendMsg ν Unit}
    {v : SigActions × SigActions} (hcall : ∀ c, SigsAt v (call c)) (a : RunArgs) :
    SigsAt v (runBody x call a) := by
  have hclosed := runClosed_sigs (x := x) hcall
  exact Maintains.bind (hclosed.srunnerInitLogging _) fun _ => Maintains.bind (hclosed.event _ _)
    fun _ => Maintains.bind (hclosed.toSuitesClosed.steps.srunnerIterateSuites _) fun _ =>
      Maintains.bind (hclosed.event _ _) fun _ => hclosed.srunnerEndLogging

/-- A run inside a run restores the dispositions that it found, and leaves them
behind as the ones to be restored at the end of the run around it. -/
theorem runNested_sigs {x : Ctx} {c : NestedRun} {s s' : St List SendMsg NestedRun}
    (h : runNested x c s = .ok () s') :
    s'.proc.sigs = s.proc.sigs ∧ s'.proc.oldSigs = s.proc.sigs := by
  simp only [runNested] at h
  cases hres : srunnerRunTagged (x.nested c.env) Empty.elim c.args
      (c.start s.proc : St List SendMsg Empty) with
  | error e u =>
      rw [hres] at h
      cases h
  | ok a u =>
      rw [hres] at h
      cases h
      obtain ⟨t, t', hbody, ht, hsigs, hold⟩ := srunnerRunTagged_sigs hres
      have hst : t'.proc.statics.2 = (runHandlers, s.proc.sigs) :=
        (sigsAt_runBody (fun c => c.elim) c.args).of_ok ht hbody
      have hold' : t'.proc.oldSigs = s.proc.sigs := congrArg Prod.snd hst
      exact ⟨hsigs.trans hold', hold.trans hold'⟩

/-- A run that is called with its own handlers in force leaves them in force,
whatever runs are made inside it. -/
theorem srunnerRunTagged_handlers {x : Ctx} {s s' : St List SendMsg NestedRun} {a : RunArgs}
    (hs : s.proc.sigs = runHandlers) (h : srunnerRunTagged x (runNested x) a s = .ok () s') :
    s'.proc.sigs = s.proc.sigs := by
  obtain ⟨t, t', hbody, ht, hsigs, -⟩ := srunnerRunTagged_sigs h
  have hcall : ∀ c, SigsAt (runHandlers, runHandlers)
      (runNested x c : RunM List SendMsg NestedRun Unit) := by
    intro c u hu
    cases hres : runNested x c u with
    | error e u' => trivial
    | ok b u' =>
        obtain ⟨h1, h2⟩ := runNested_sigs hres
        have hu1 : u.proc.sigs = runHandlers := congrArg Prod.fst hu
        exact Prod.ext (h1.trans hu1) (h2.trans hu1)
  rw [hs] at ht
  have hst := (sigsAt_runBody hcall a).of_ok ht hbody
  rw [hsigs, hs]
  exact congrArg Prod.snd hst

/-- The dispositions, and those to be restored, concern only the runs that are made. -/
theorem indifferent_sigs {x : Ctx} (v : SigActions × SigActions) :
    Indifferent x Prod.snd fun s => s.proc.statics.2 = v where
  untouched hs hun := hun.statics.trans hs
  addFailure _ _ hs := hs
  occasion _ _ hs := hs
  observe _ _ _ hs := hs
  tagLst _ _ _ hs := hs
  event obj evt _ :=
    (keeps_watch_srunnerSendEvt obj evt).maintains (I := fun w => w.2 = v)

/-- A run of the abstract machine in whose process no other run is made. -/
theorem srunnerRunTagged_restores {x : Ctx} {s s' : St List SendMsg NestedRun} {a : RunArgs}
    (h : srunnerRunTagged x (runSparing x fun _ => false) a s = .ok () s') :
    s'.proc.sigs = s.proc.sigs := by
  obtain ⟨t, t', hbody, ht, hsigs, -⟩ := srunnerRunTagged_sigs h
  -- no user code runs at the two ends
  have hends : RunClosed x (fun _ : NestedRun => pure ()) fun {α} y =>
      SigsAt (α := α) (runHandlers, s.proc.sigs) y := runClosed_sigs fun _ => Maintains.pure ()
  have hnone : ∀ c : NestedRun, false = true →
      Keeps (fun s => s.proc.statics.2) (runNested x c : RunM List SendMsg NestedRun Unit) :=
    fun _ hc => absurd hc Bool.false_ne_true
  have hsuites := (indifferent_sigs (x := x) (runHandlers, s.proc.sigs)).srunnerIterateSuites hnone
    (effectiveArgs x.env a)
  have hrun : SigsAt (runHandlers, s.proc.sigs) (runBody x (runSparing x fun _ => false) a) :=
    Maintains.bind (hends.srunnerInitLogging _) fun _ => Maintains.bind (hends.event _ _)
      fun _ => Maintains.bind hsuites fun _ => Maintains.bind (hends.event _ _) fun _ =>
        hends.srunnerEndLogging
  have hst : t'.proc.statics.2 = (runHandlers, s.proc.sigs) := hrun.of_ok ht hbody
  exact hsigs.trans (congrArg Prod.snd hst)

/-! ## the code -/

/-- **A run restores the signal dispositions it found**, whatever they are, if no
other run is made in its process.  A run that is made in a forked test is of no
account, and none is if the dispositions were the handlers of a run already. -/
theorem dispositions_restored {x : Ctx} {s s' : St CkList UInt8 NestedRun} {a : RunArgs}
    (hs : Legible x.cfg s.proc)
    (hfree : s.proc.sigs = runHandlers ∨
      ∀ t, srunnerRunTagged x (runSparing x fun _ => false) a s ≠ .error .brokenOff t)
    (h : srunnerRunTagged x (runNested x) a s = .ok () s') : s'.proc.sigs = s.proc.sigs := by
  obtain ⟨t, hst⟩ := hs.exists_stRel
  rcases hfree with hown | hfree
  · obtain ⟨t', ht', hst'⟩ :=
      (sim_srunnerRunTagged (x := x) (keeps_runNested _) (sim_runNested _) a).of_ok hst h
    cases hst with
    | mk _ _ =>
        cases hst' with
        | mk _ _ => exact srunnerRunTagged_handlers hown ht'
  · obtain ⟨t', ht', hst'⟩ := srunnerRunTagged_runSparing hst hfree h
    cases hst with
    | mk _ _ =>
        cases hst' with
        | mk _ _ => exact srunnerRunTagged_restores ht'

/-- Tests that make runs, each in a process of its own. -/
theorem dispositions_restored_nesting :
    ∃ s', srunnerRunTagged Sample.ctx (runNested Sample.ctx) Sample.args
        (Sample.start Sample.nesting .fork) = .ok () s' ∧
      s'.proc.sigs = ⟨.user 0, .user 0, .user 0⟩ := by
  have hrun : (returned (srunnerRunTagged Sample.ctx (runNested Sample.ctx) Sample.args
      (Sample.start Sample.nesting .fork))).map (fun _ => ()) = some () := by
    decide +kernel
  have hspared : (returned (srunnerRunTagged Sample.ctx (runSparing Sample.ctx fun _ => false)
      Sample.args (Sample.start Sample.nesting .fork))).isSome := by
    decide +kernel
  obtain ⟨_, s', hs', -⟩ := ok_of_returned hrun
  refine ⟨s', hs', dispositions_restored (x := Sample.ctx) (s := Sample.start Sample.nesting .fork)
    (legible_of_closed rfl rfl) (.inr fun t ht => ?_) hs'⟩
  rw [ht] at hspared
  cases hspared

/-- A test that makes a run in the process of the runner: the handlers of the
library stay installed. -/
theorem handlers_left_after_nested_run :
    ∃ s', srunnerRunTagged Sample.ctx (runNested Sample.ctx) Sample.args
        (Sample.start [⟨fun _ => [], [Sample.test [.call Sample.emptyRun]], none⟩] .nofork) =
          .ok () s' ∧ s'.proc.sigs = runHandlers ∧
      (Sample.start [⟨fun _ => [], [Sample.test [.call Sample.emptyRun]],
        none⟩] .nofork).proc.sigs =
        ⟨.user 0, .user 0, .user 0⟩ := by
  have hrun : (returned (srunnerRunTagged Sample.ctx (runNested Sample.ctx) Sample.args
      (Sample.start [⟨fun _ => [], [Sample.test [.call Sample.emptyRun]], none⟩] .nofork))).map
        (fun r => r.2.proc.sigs) = some runHandlers := by
    decide +kernel
  obtain ⟨_, s', hs', hsigs⟩ := ok_of_returned hrun
  exact ⟨s', hs', hsigs, rfl⟩

end LibCheck
