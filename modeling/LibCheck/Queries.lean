import LibCheck.Counters
import LibCheck.Guarded
import LibCheck.Select

/-!
# LibCheck.Queries

The public queries, made by user code in the middle of a run on the runner and
the suites that are being run.

All of them walk a list of `check_list.c`, and so move its cursor.  The result
list is not walked by the run itself.  The test cases of the suite whose turn
it is are: `suite_tcase` on that suite leaves the cursor of the run's own loop on the
test case it found, or past the last one, and the run goes on from there.

* `Harmless` — a query after which the same test case is up next as before.
* `harmless_queries_keep_run` — a run all of whose queries are harmless is the
  run without them, and it comes to an end.
-/

namespace LibCheck

open Prog

/-! ## queries -/

/-- The public queries on the runner and the suites of a run. -/
inductive Query where
  | suiteTcase (s : SuiteId) (tcname : CStr)
  | srunnerNtestsRun
  | srunnerNtestsFailed
  | srunnerFailures
  | srunnerResults
  | srunnerPrint (mode : PrintOutput)

/-- What user code calls: a query, or another run. -/
inductive QueryCall where
  | query (q : Query)
  | run (c : NestedRun)

section

variable {L : Type → Type} {β ν : Type} [Lists L]

/-- A function that walks the result list of the runner; the array it returns
or the text it prints is not part of the state. -/
def walking (y : EStateM Stop (Walk L α) Unit) : RunM L β ν Unit := fun s =>
  match y ⟨s.sr, []⟩ with
  | .ok _ w => .ok () { s with sr := w.sr }
  | .error e w => .error e { s with sr := w.sr }

/-- A query of user code, which does nothing with the answer. -/
def runQuery (x : Ctx) : Query → RunM L β ν Unit
  | .suiteTcase s tcname => do
      let _ ← suiteTcase x s tcname
      pure ()
  | .srunnerNtestsRun => do
      let _ ← read fun s => srunnerNtestsRun s.sr
      pure ()
  | .srunnerNtestsFailed => do
      let _ ← read fun s => srunnerNtestsFailed s.sr
      pure ()
  | .srunnerFailures => walking (srunnerFailures x)
  | .srunnerResults => walking (srunnerResults x)
  | .srunnerPrint mode => walking (srunnerFprint x mode)

/-- The calls of user code. -/
def runCall [Wire β] (x : Ctx) : QueryCall → RunM L β QueryCall Unit
  | .query q => runQuery x q
  | .run c => runNested x c

/-- The same user code without its queries. -/
def withoutQueries [Wire β] (x : Ctx) : QueryCall → RunM L β QueryCall Unit
  | .query _ => pure ()
  | .run c => runNested x c

/-- The step of a user function is a query. -/
def Act.isQuery : Act QueryCall → Bool
  | .call (.query _) => true
  | _ => false

/-- To make queries that do nothing is to make none. -/
theorem runFun_withoutQueries [Wire β] (x : Ctx) (acts : List (Act QueryCall)) :
    (runFun x (withoutQueries x) acts : RunM L β QueryCall Bool) =
      runFun x (withoutQueries x) (acts.filter fun act => !act.isQuery) := by
  induction acts with
  | nil => rfl
  | cons act acts ih =>
      cases act with
      | markPoint loc => simp [Act.isQuery, runFun, ih]
      | assertFailed loc expr msg => simp [Act.isQuery, runFun]
      | exit status => simp [Act.isQuery, runFun]
      | raise sig => simp [Act.isQuery, runFun]
      | call c =>
          cases c with
          | query q => simpa [Act.isQuery, runFun, withoutQueries] using ih
          | run c => simp [Act.isQuery, runFun, ih]

end

/-! ## what suite_tcase does to the cursor -/

/-- The position of the test case that `suite_tcase` finds, or the number of
test cases. -/
def found (s : St CkList UInt8 ν) (su : SuiteId) (tcname : CStr) : Nat :=
  (s.heap.lists (.tclst su)).elems.findIdx fun tc => tcname = s.heap.tcName tc

/-- `suite_tcase` leaves the cursor of the suite on the test case it found. -/
theorem suiteTcase_ok (x : Ctx) (su : SuiteId) (tcname : CStr) (s : St CkList UInt8 ν) :
    ∃ b s', suiteTcase x su tcname s = .ok b s' ∧
      (s'.heap.lists (.tclst su)).1.Rep (s.heap.lists (.tclst su)).elems (found s su tcname) := by
  have hlaws := @CkList.cursor_laws (St CkList UInt8 ν) TCaseId (fun s => s.heap.lists (.tclst su))
    (St.setList (.tclst su)) (St.lists_setList_self (.tclst su))
  let search : TCaseId → RunM CkList UInt8 ν (Option Unit) := fun tc => do
    let name ← read fun st => st.heap.tcName tc
    pure (if tcname = name then some () else none)
  have hsearch : ∀ tc t, t.heap.tcName = s.heap.tcName →
      search tc t = .ok (if tcname = s.heap.tcName tc then some () else none) t := by
    intro tc t h
    simp only [search, bind_apply, read_apply, h]
    rfl
  obtain ⟨s', hrun, hat⟩ := Cursor.forEach_find hlaws x.env.slack Stop.diverged Stop.undefined
    (fun _ h => h) (fun _ h => h) hsearch (s := s) rfl rfl
  refine ⟨_, s', bind_of_ok _ hrun, ?_⟩
  have hidx : (fun tc => (if tcname = s.heap.tcName tc then some () else none).isSome) =
      fun tc => decide (tcname = s.heap.tcName tc) := by
    funext tc
    by_cases h : tcname = s.heap.tcName tc <;> simp [h]
  rw [hidx] at hat
  exact hat

theorem keeps_suiteTcase {r : LRef} (x : Ctx) (su : SuiteId) (tcname : CStr) (hr : r ≠ .tclst su) :
    Keeps (fun s => s.heap.lists r) (suiteTcase x su tcname : RunM CkList UInt8 ν Bool) :=
  Keeps.bind (Keeps.lists _ (fun l s => St.lists_setList_of_ne hr l s) fun _ =>
    Keeps.bind (Keeps.read _) fun _ => Keeps.pure _) fun _ => Keeps.pure _

/-- On the abstract machine the query leaves everything alone. -/
theorem suiteTcase_list {β : Type} (x : Ctx) (su : SuiteId) (tcname : CStr) (t : St List β ν) :
    ∃ b, suiteTcase x su tcname t = .ok b t := by
  refine ⟨_, bind_of_ok _ (findSomeM_eq (g := fun tc =>
    if tcname = t.heap.tcName tc then some () else none) fun tc _ => rfl)⟩

/-! ## harmless queries -/

/-- After the call the same test case is up next as before: a query
`suite_tcase` on the suite whose turn it is stops at the test case that is being
run, or past the last one while the last one is being run. -/
def Harmless : QueryCall → St CkList UInt8 QueryCall → Prop
  | .query (.suiteTcase su tcname), s =>
      Turn su s → min (found s su tcname + 1) (s.heap.lists (.tclst su)).elems.length =
        (s.heap.lists (.tclst su)).next
  | _, _ => True

instance (su : SuiteId) (s : St CkList UInt8 ν) : Decidable (Turn su s) :=
  inferInstanceAs (Decidable ((s.heap.lists .slst).1.val = some su))

instance : ∀ c s, Decidable (Harmless c s)
  | .query (.suiteTcase su _), s =>
      inferInstanceAs (Decidable (Turn su s → _ = (s.heap.lists (.tclst su)).next))
  | .query .srunnerNtestsRun, _ => isTrue trivial
  | .query .srunnerNtestsFailed, _ => isTrue trivial
  | .query .srunnerFailures, _ => isTrue trivial
  | .query .srunnerResults, _ => isTrue trivial
  | .query (.srunnerPrint _), _ => isTrue trivial
  | .run _, _ => isTrue trivial

/-! ## runs with harmless queries -/

/-- User code that leaves out the queries that are not harmless. -/
def harmlessOnly (x : Ctx) : QueryCall → RunM CkList UInt8 QueryCall Unit := fun c s =>
  if Harmless c s then runCall x c s else .ok () s

theorem harmlessOnly_of_harmless {x : Ctx} {c : QueryCall} {s : St CkList UInt8 QueryCall}
    (h : Harmless c s) : harmlessOnly x c s = runCall x c s := if_pos h

theorem harmlessOnly_of_not {x : Ctx} {c : QueryCall} {s : St CkList UInt8 QueryCall}
    (h : ¬Harmless c s) : harmlessOnly x c s = .ok () s := if_neg h

/-- Every call but `suite_tcase` is harmless. -/
theorem harmless_of_ne {c : QueryCall} (hc : ∀ su tcname, c ≠ .query (.suiteTcase su tcname))
    (s : St CkList UInt8 QueryCall) : Harmless c s := by
  cases c with
  | run c => trivial
  | query q =>
      cases q with
      | suiteTcase su tcname => exact absurd rfl (hc su tcname)
      | _ => trivial

theorem keeps_walking (y : EStateM Stop (Walk CkList α) Unit) :
    Keeps (fun s => s.heap) (walking y : RunM CkList UInt8 ν Unit) := by
  intro c s hs
  simp only [walking]
  cases y ⟨s.sr, []⟩ with
  | ok a w => exact hs
  | error e w => trivial

/-- Every call but `suite_tcase` leaves the lists of the heap alone. -/
theorem keeps_runCall {v : St CkList UInt8 QueryCall → γ} (hv : Outer 0 v) (x : Ctx) {c : QueryCall}
    (hc : ∀ su tcname, c ≠ .query (.suiteTcase su tcname)) : Keeps v (runCall x c) := by
  have hheap : ∀ {y : RunM CkList UInt8 QueryCall Unit}, Keeps (fun s => s.heap) y → Keeps v y :=
    fun h => hv.keeps (h.above 0)
  cases c with
  | run c => exact hv.memory (keeps_runNested x c)
  | query q =>
      cases q with
      | suiteTcase su tcname => exact absurd rfl (hc su tcname)
      | srunnerNtestsRun => exact Keeps.bind (Keeps.read _) fun _ => Keeps.pure _
      | srunnerNtestsFailed => exact Keeps.bind (Keeps.read _) fun _ => Keeps.pure _
      | srunnerFailures => exact hheap (keeps_walking _)
      | srunnerResults => exact hheap (keeps_walking _)
      | srunnerPrint mode => exact hheap (keeps_walking _)

theorem sparesCase_harmlessOnly (x : Ctx) : SparesCase (harmlessOnly x) := by
  intro r hr c
  have hcall : Keeps (fun s => s.heap.lists r)
      (runCall x c : RunM CkList UInt8 QueryCall Unit) := by
    by_cases hc : ∃ su tcname, c = .query (.suiteTcase su tcname)
    · obtain ⟨su, tcname, rfl⟩ := hc
      have hne : r ≠ .tclst su := fun h => by
        rw [h, LRef.rank] at hr
        omega
      exact Keeps.bind (keeps_suiteTcase x su tcname hne) fun _ => Keeps.pure _
    · exact keeps_runCall (Outer.list (Nat.zero_le _)) x fun su tcname h => hc ⟨su, tcname, h⟩
  intro l s hs
  by_cases h : Harmless c s
  · rw [harmlessOnly_of_harmless h]
    exact hcall l s hs
  · rw [harmlessOnly_of_not h]
    exact hs

/-- A harmless `suite_tcase` leaves the schedule alone. -/
theorem schedule_suiteTcase {x : Ctx} {su : SuiteId} {tcname : CStr}
    {s s' : St CkList UInt8 QueryCall} (h : Harmless (.query (.suiteTcase su tcname)) s)
    (hrun : suiteTcase x su tcname s = .ok b s') : schedule s' = schedule s := by
  have hne : LRef.slst ≠ .tclst su := fun h => nomatch h
  have hslst : s'.heap.lists .slst = s.heap.lists .slst :=
    (keeps_suiteTcase x su tcname hne).of_ok hrun
  have hnext : ∀ su', (s.heap.lists .slst).1.val = some su' →
      (s'.heap.lists (.tclst su')).elems = (s.heap.lists (.tclst su')).elems ∧
        (s'.heap.lists (.tclst su')).next = (s.heap.lists (.tclst su')).next := by
    intro su' hturn
    by_cases hsu : su' = su
    · subst hsu
      obtain ⟨b', s'', hok, hrep⟩ := suiteTcase_ok x su' tcname s
      rw [hrun] at hok
      cases hok
      have helems : (s'.heap.lists (.tclst su')).elems = _ := hrep.elems_eq
      refine ⟨helems, ?_⟩
      rw [CkList.next, helems, CkList.position, hrep.position_eq]
      exact h hturn
    · have hlist : s'.heap.lists (.tclst su') = s.heap.lists (.tclst su') :=
        (keeps_suiteTcase x su tcname fun h => hsu (by cases h; rfl)).of_ok hrun
      rw [hlist]
      exact ⟨rfl, rfl⟩
  rw [schedule, schedule, hslst]
  cases hval : (s.heap.lists .slst).1.val with
  | none => rfl
  | some su' =>
      obtain ⟨helems, hpos⟩ := hnext su' hval
      simp only [Option.map_some, helems, hpos]

theorem keeps_schedule_harmlessOnly (x : Ctx) (c : QueryCall) :
    Keeps schedule (harmlessOnly x c) := by
  intro l s hs
  by_cases h : Harmless c s
  · rw [harmlessOnly_of_harmless h]
    by_cases hc : ∃ su tcname, c = .query (.suiteTcase su tcname)
    · obtain ⟨su, tcname, rfl⟩ := hc
      obtain ⟨b, s', hok, -⟩ := suiteTcase_ok x su tcname s
      have hrun : runCall x (.query (.suiteTcase su tcname)) s = .ok () s' := bind_of_ok _ hok
      rw [hrun]
      exact (schedule_suiteTcase h hok).trans hs
    · exact keeps_runCall (outer_schedule.mono (Nat.zero_le _)) x
        (fun su tcname h => hc ⟨su, tcname, h⟩) l s hs
  · rw [harmlessOnly_of_not h]
    exact hs

theorem sim_walking {y : EStateM Stop (Walk CkList α) Unit} {z : EStateM Stop (Walk List α) Unit}
    (h : Sim WalkRel y z) :
    Sim (StRel cfg) (walking y : RunM CkList UInt8 ν Unit) (walking z) := by
  intro s t hst
  cases hst with
  | @mk f1 f2 h1 h2 =>
      have hyz := h ⟨s.sr, []⟩ ⟨s.sr.abs, []⟩ (walkRel_nil s.sr)
      simp only [walking, St.abs]
      generalize y ⟨s.sr, []⟩ = ry, z ⟨s.sr.abs, []⟩ = rz at hyz
      cases hyz with
      | @ok a w v hw =>
          rw [hw]
          exact .ok () (.mk { s with sr := w.sr } h1 h2)
      | @error e w v hw =>
          rw [hw]
          exact .error e (.mk { s with sr := w.sr } h1 h2)

theorem sim_runCall (x : Ctx) (c : QueryCall) :
    Sim (StRel x.cfg) (runCall x c : RunM CkList UInt8 QueryCall Unit) (runCall x c) := by
  cases c with
  | run c => exact sim_runNested x c
  | query q =>
      cases q with
      | suiteTcase su tcname => exact Sim.bind (sim_suiteTcase x su tcname) fun _ => Sim.pure _
      | srunnerNtestsRun => exact Sim.bind (sim_read fun _ _ _ => rfl) fun _ => Sim.pure _
      | srunnerNtestsFailed => exact Sim.bind (sim_read fun _ _ _ => rfl) fun _ => Sim.pure _
      | srunnerFailures => exact sim_walking (sim_srunnerFailures x)
      | srunnerResults => exact sim_walking (sim_srunnerResults x)
      | srunnerPrint mode => exact sim_walking (sim_srunnerFprint x mode)

/-- Where a query is left out, the abstract machine has nothing to do. -/
theorem sim_harmlessOnly (x : Ctx) (c : QueryCall) :
    Sim (StRel x.cfg) (harmlessOnly x c) (runCall x c) := by
  intro s t hst
  by_cases h : Harmless c s
  · rw [harmlessOnly_of_harmless h]
    exact sim_runCall x c s t hst
  · rw [harmlessOnly_of_not h]
    by_cases hc : ∃ su tcname, c = .query (.suiteTcase su tcname)
    · obtain ⟨su, tcname, rfl⟩ := hc
      obtain ⟨b, hok⟩ := suiteTcase_list x su tcname t
      have hrun : runCall x (.query (.suiteTcase su tcname)) t = .ok () t := bind_of_ok _ hok
      rw [hrun]
      exact .ok () hst
    · exact absurd (harmless_of_ne (fun su tcname h => hc ⟨su, tcname, h⟩) s) h

/-! ## the abstract machine -/

/-- With counters that count the result list, a query on the abstract machine
changes nothing. -/
theorem runQuery_list (x : Ctx) (q : Query) {t : St List SendMsg ν}
    (ht : Counted t.sr.stats t.sr.resultlst) : runQuery x q t = .ok () t := by
  cases q with
  | suiteTcase su tcname =>
      obtain ⟨b, hok⟩ := suiteTcase_list x su tcname t
      exact bind_of_ok _ hok
  | srunnerNtestsRun => rfl
  | srunnerNtestsFailed => rfl
  | srunnerFailures => simp only [runQuery, walking, srunnerFailures_list ht]
  | srunnerResults => simp only [runQuery, walking, srunnerResults_list ht]
  | srunnerPrint mode => simp only [runQuery, walking, srunnerFprint_list]

/-- On the abstract machine a run with queries is the run without them, and it
comes to an end. -/
theorem srunnerRunTagged_list_queries (x : Ctx) (a : RunArgs) {t : St List SendMsg QueryCall}
    (ht : Counted t.sr.stats t.sr.resultlst) :
    srunnerRunTagged x (runCall x) a t = srunnerRunTagged x (withoutQueries x) a t ∧
      ∀ t', srunnerRunTagged x (runCall x) a t ≠ .error .diverged t' := by
  classical
  let counted : QueryCall → St List SendMsg QueryCall → Prop := fun _ s =>
    Counted s.sr.stats s.sr.resultlst
  have hcall : ∀ c, Maintains (fun s => Counted s.memory.2.1.stats s.memory.2.1.resultlst)
      (fun e _ => Stop.Real e) (guarded counted (runCall x) c) := by
    intro c s hs
    have hguard : guarded counted (runCall x) c s = runCall x c s := if_pos hs
    rw [hguard]
    cases c with
    | query q =>
        have hq : runCall x (.query q) s = .ok () s := runQuery_list x q hs
        rw [hq]
        exact hs
    | run c =>
        have hend := runNested_obsAt (Nat.succ_ne_self x.lvl) _ c s rfl
        cases hres : (runNested x c : RunM List SendMsg QueryCall Unit) s with
        | ok u s' =>
            simp only [runCall, hres]
            rw [(keeps_runNested x c).of_ok hres]
            exact hs
        | error e s' =>
            simp only [runCall, hres]
            rw [hres] at hend
            exact hend.2
  have hclosed := runClosed_ends (I := fun m => Counted m.2.1.stats m.2.1.resultlst)
    (runClosed_counted (x := x) fun _ => Keeps.pure _) hcall
  have hends : ∀ e t', srunnerRunTagged x (guarded counted (runCall x)) a t = .error e t' →
      e.Real := fun _ _ h =>
    (srunnerRunTagged_ends (I := fun m => Counted m.2.1.stats m.2.1.resultlst)
      hclosed a).of_error ht h
  have hguard : ∀ t', srunnerRunTagged x (guarded counted (runCall x)) a t ≠ .error .brokenOff t' :=
    fun t' h => hends _ t' h
  have hwith : srunnerRunTagged x (guarded counted (runCall x)) a t =
      srunnerRunTagged x (runCall x) a t :=
    srunnerRunTagged_of_guarded (walksAlike_list x) (fun _ _ _ => rfl) hguard
  have hwithout : srunnerRunTagged x (guarded counted (runCall x)) a t =
      srunnerRunTagged x (withoutQueries x) a t := by
    refine srunnerRunTagged_of_guarded (walksAlike_list x) (fun c s hs => ?_) hguard
    cases c with
    | query q => exact (runQuery_list x q hs).symm
    | run c => rfl
  rw [hwith] at hends
  exact ⟨hwith.symm.trans hwithout, fun t' h => hends _ t' h⟩

/-! ## runs with and without queries -/

/-- Two states of the code that differ in the cursors of lists at most. -/
structure SameButCursors (s t : St CkList UInt8 ν) : Prop where
  proc : s.proc = t.proc
  stats : s.sr.stats = t.sr.stats
  results : s.sr.resultlst.elems = t.sr.resultlst.elems
  lists : ∀ r, (s.heap.lists r).elems = (t.heap.lists r).elems

theorem FileRel.left_unique {f f' : Option (Pipe UInt8)} {g : Option (Pipe SendMsg)}
    (h : Option.Rel (FileRel cfg) f g) (h' : Option.Rel (FileRel cfg) f' g) : f = f' := by
  cases h with
  | none =>
      cases h' with
      | none => rfl
  | @some f g hfg =>
      cases h' with
      | @some f' _ hfg' =>
          cases f with
          | mk id content =>
              cases f' with
              | mk id' content' =>
                  have hid : id = id' := hfg.id.trans hfg'.id.symm
                  have hcontent : content = content' := hfg.content.trans hfg'.content.symm
                  rw [hid, hcontent]

theorem StRel.exists_files {s : St CkList UInt8 ν} {t : St List SendMsg ν} (h : StRel cfg s t) :
    ∃ f1 f2, Option.Rel (FileRel cfg) s.proc.sendFile1 f1 ∧
      Option.Rel (FileRel cfg) s.proc.sendFile2 f2 ∧ t = s.abs f1 f2 := by
  cases h with
  | mk h1 h2 => exact ⟨_, _, h1, h2, rfl⟩

/-- States of the code with the same counterpart. -/
theorem StRel.sameButCursors {s s' : St CkList UInt8 ν} {t : St List SendMsg ν}
    (h : StRel cfg s t) (h' : StRel cfg s' t) : SameButCursors s s' := by
  have hlists : ∀ r, (s.heap.lists r).elems = (s'.heap.lists r).elems := fun r =>
    (h.elems_eq r).trans (h'.elems_eq r).symm
  obtain ⟨f1, f2, h1, h2, rfl⟩ := h.exists_files
  obtain ⟨g1, g2, h1', h2', heq⟩ := h'.exists_files
  have hproc := congrArg St.proc heq
  have hsr := congrArg St.sr heq
  simp only [St.abs, Proc.withFiles, Proc.mk.injEq] at hproc
  simp only [St.abs, SRunner.abs, SRunner.mk.injEq] at hsr
  obtain ⟨e1, e2, rfl, rfl, e3, e4, e5, e6, e7, e8, e9⟩ := hproc
  have hfile1 := FileRel.left_unique h1 h1'
  have hfile2 := FileRel.left_unique h2 h2'
  refine ⟨?_, hsr.1, hsr.2.1, hlists⟩
  cases hs : s.proc with
  | mk _ _ _ _ _ _ _ _ _ _ _ =>
      cases hs' : s'.proc with
      | mk _ _ _ _ _ _ _ _ _ _ _ => simp_all

/-- **Harmless queries do not change a run**: if the run is made with counters
that count the result list, and every query of user code is harmless where it is
made, then the run with the queries and the run without them end in the same way,
with the same history of test cases, tests, events and results, and they do end. -/
theorem harmless_queries_keep_run {x : Ctx} {a : RunArgs} {s : St CkList UInt8 QueryCall}
    (hs : Legible x.cfg s.proc) (hcount : Counted s.sr.stats s.sr.resultlst.elems)
    (hharmless : ∀ s', srunnerRunTagged x (guarded Harmless (runCall x)) a s ≠
      .error .brokenOff s') :
    Agree SameButCursors (srunnerRunTagged x (runCall x) a s)
        (srunnerRunTagged x (withoutQueries x) a s) ∧
      ∀ s', srunnerRunTagged x (runCall x) a s ≠ .error .diverged s' := by
  obtain ⟨t, hst⟩ := hs.exists_stRel
  have ht : Counted t.sr.stats t.sr.resultlst := by
    cases hst with
    | mk _ _ => exact hcount
  obtain ⟨hsame, hends⟩ := srunnerRunTagged_list_queries x a ht
  -- the queries are harmless, so the run does not change if the others are left out
  have hguard : srunnerRunTagged x (guarded Harmless (runCall x)) a s =
      srunnerRunTagged x (runCall x) a s :=
    srunnerRunTagged_of_guarded (walksAlike_ckList x) (fun _ _ _ => rfl) hharmless
  have honly : srunnerRunTagged x (guarded Harmless (runCall x)) a s =
      srunnerRunTagged x (harmlessOnly x) a s :=
    srunnerRunTagged_of_guarded (walksAlike_ckList x)
      (fun _ _ h => harmlessOnly_of_harmless h) hharmless
  have hwith := sim_srunnerRunTagged_of_schedule (sparesCase_harmlessOnly x) (sim_harmlessOnly x)
    (keeps_schedule_harmlessOnly x) a s t hst
  have hwithout : Agree (StRel x.cfg) (srunnerRunTagged x (withoutQueries x) a s)
      (srunnerRunTagged x (withoutQueries x) a t) := by
    refine sim_srunnerRunTagged (fun c => ?_) (fun c => ?_) a s t hst
    · cases c with
      | query q => exact Keeps.pure _
      | run c => exact keeps_runNested x c
    · cases c with
      | query q => exact Sim.pure _
      | run c => exact sim_runNested x c
  rw [← honly, hguard] at hwith
  rw [← hsame] at hwithout
  generalize srunnerRunTagged x (runCall x) a s = rs at hwith ⊢
  generalize srunnerRunTagged x (withoutQueries x) a s = rs' at hwithout ⊢
  generalize srunnerRunTagged x (runCall x) a t = rt at hwith hwithout hends
  cases hwith with
  | ok u h =>
      cases hwithout with
      | ok _ h' => exact ⟨.ok u (h.sameButCursors h'), fun _ he => nomatch he⟩
  | error e h =>
      cases hwithout with
      | error _ h' =>
          refine ⟨.error e (h.sameButCursors h'), fun s' he => ?_⟩
          cases he
          exact hends _ rfl

/-! ## sample runs -/

namespace Sample

/-- A query `suite_tcase` on the only suite. -/
def ask (tcname : String) : Act QueryCall := .call (.query (.suiteTcase 0 (.lit tcname)))

/-- Two test cases `a` and `b`, each with one test that does the given steps. -/
def twoCases (a b : List (Act QueryCall)) : St CkList UInt8 QueryCall :=
  let s := start [⟨fun _ => [], [test a], none⟩, ⟨fun _ => [], [test b], none⟩] .nofork
  { s with heap := { s.heap with tcName := fun tc => if tc = 0 then .lit "a" else .lit "b" } }

/-- Test cases that ask for themselves, the last one also for a test case that
does not exist. -/
def askThemselves : St CkList UInt8 QueryCall :=
  twoCases [ask "a", .call (.query .srunnerResults)]
    [ask "c", ask "b", .call (.query (.srunnerPrint .normal))]

end Sample

/-- Queries of two test cases for themselves. -/
theorem harmless_queries_keep_run_themselves :
    ∃ s' t', srunnerRunTagged Sample.ctx (runCall Sample.ctx) Sample.args Sample.askThemselves =
        .ok () s' ∧
      srunnerRunTagged Sample.ctx (withoutQueries Sample.ctx) Sample.args Sample.askThemselves =
        .ok () t' ∧ SameButCursors s' t' ∧ tcases 0 s'.proc.hist = [0, 1] := by
  have hguard : (returned (srunnerRunTagged Sample.ctx (guarded Harmless (runCall Sample.ctx))
      Sample.args Sample.askThemselves)).map (fun _ => ()) = some () := by
    decide +kernel
  obtain ⟨_, u, hu, -⟩ := ok_of_returned hguard
  have hagree := (harmless_queries_keep_run (x := Sample.ctx) (a := Sample.args)
    (s := Sample.askThemselves) (legible_of_closed rfl rfl) counted_nil (by simp [hu])).1
  have hwith : (returned (srunnerRunTagged Sample.ctx (runCall Sample.ctx) Sample.args
      Sample.askThemselves)).map (fun r => tcases 0 r.2.proc.hist) = some [0, 1] := by
    decide +kernel
  obtain ⟨_, s', hs', hcases⟩ := ok_of_returned hwith
  rw [hs'] at hagree
  generalize srunnerRunTagged Sample.ctx (withoutQueries Sample.ctx) Sample.args
    Sample.askThemselves = r at hagree
  cases hagree with
  | @ok _ _ t' h => exact ⟨s', t', hs', rfl, h, hcases⟩

/-- The test of the first of two test cases asks for a test case that does not exist: the
second test case is never run. -/
theorem query_skips_test_case :
    ((returned (srunnerRunTagged Sample.ctx (runCall Sample.ctx) Sample.args
        (Sample.twoCases [Sample.ask "c"] []))).map fun r => tcases 0 r.2.proc.hist) = some [0] ∧
      ((returned (srunnerRunTagged Sample.ctx (withoutQueries Sample.ctx) Sample.args
        (Sample.twoCases [Sample.ask "c"] []))).map fun r => tcases 0 r.2.proc.hist) =
          some [0, 1] ∧
      ¬Agree SameButCursors
        (srunnerRunTagged Sample.ctx (runCall Sample.ctx) Sample.args
          (Sample.twoCases [Sample.ask "c"] []))
        (srunnerRunTagged Sample.ctx (withoutQueries Sample.ctx) Sample.args
          (Sample.twoCases [Sample.ask "c"] [])) := by
  have hwith : ((returned (srunnerRunTagged Sample.ctx (runCall Sample.ctx) Sample.args
      (Sample.twoCases [Sample.ask "c"] []))).map fun r => tcases 0 r.2.proc.hist) = some [0] := by
    decide +kernel
  have hwithout : ((returned (srunnerRunTagged Sample.ctx (withoutQueries Sample.ctx) Sample.args
      (Sample.twoCases [Sample.ask "c"] []))).map fun r => tcases 0 r.2.proc.hist) =
        some [0, 1] := by
    decide +kernel
  refine ⟨hwith, hwithout, fun h => ?_⟩
  obtain ⟨_, s', hs', hcases⟩ := ok_of_returned hwith
  obtain ⟨_, t', ht', hcases'⟩ := ok_of_returned hwithout
  rw [hs', ht'] at h
  cases h with
  | ok _ h =>
      rw [h.proc, hcases'] at hcases
      cases hcases

-- If the test of the second one asks for the first, the run starts the second one
-- over and over again, until the budget of the loop is used up.
example :
    ((stopped (srunnerRunTagged Sample.ctx (runCall Sample.ctx) Sample.args
      (Sample.twoCases [] [Sample.ask "a"]))).map fun r => (r.1, tcases 0 r.2.proc.hist)) =
        some (.diverged, [0, 1, 1]) := by
  decide +kernel

end LibCheck
