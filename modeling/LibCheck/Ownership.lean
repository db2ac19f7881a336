import LibCheck.Lockstep
import Mathlib.Data.List.Nodup
import Mathlib.Data.List.Pairwise

/-!
# LibCheck.Ownership

Who owns suites, test cases and results, and what `srunner_free` releases.

Objects are told apart by their address.  Nothing but the lists says which
object belongs to which: a runner owns what its list of suites reaches.

* `Call` — the calls that create objects and connect them; `Built` — what a
  sequence of them leads to.
* `srunnerFree` — releases what a runner reaches, in the order of the lists.
* `srunnerFree_nodup_iff` — no object is released twice if and only if no
  suite was given to the runner twice and no test case was added to two of
  its suites.

What is released keeps its contents, so that a second walk over the list of a
released suite finds what the first one found.
-/

namespace LibCheck.Ownership

open Prog

/-- The address of an `SRunner`. -/
abbrev RunnerId := Nat

/-- The address of a `TestResult`. -/
abbrev ResultId := Nat

/-- An object that `srunner_free` releases. -/
inductive Obj where
  | suite (s : SuiteId)
  | tcase (tc : TCaseId)
  | result (tr : ResultId)
deriving DecidableEq, Repr

/-- The objects that exist, their lists, and what was released, in order. -/
structure Store (L : Type → Type) where
  suites : List SuiteId
  tcases : List TCaseId
  runners : List RunnerId
  results : List ResultId
  tclst : SuiteId → L TCaseId
  slst : RunnerId → L SuiteId
  resultlst : RunnerId → L ResultId
  freed : List Obj

section

variable {L : Type → Type} [Lists L]

/-- Programs over the store. -/
abbrev StoreM (L : Type → Type) := EStateM Stop (Store L)

def Store.setTclst (s : SuiteId) (l : L TCaseId) (st : Store L) : Store L :=
  { st with tclst := Function.update st.tclst s l }

def Store.setSlst (sr : RunnerId) (l : L SuiteId) (st : Store L) : Store L :=
  { st with slst := Function.update st.slst sr l }

def Store.setResultlst (sr : RunnerId) (l : L ResultId) (st : Store L) : Store L :=
  { st with resultlst := Function.update st.resultlst sr l }

/-- The memory of a program in which no object was created. -/
def Store.initial : Store L where
  suites := []
  tcases := []
  runners := []
  results := []
  tclst _ := Lists.empty
  slst _ := Lists.empty
  resultlst _ := Lists.empty
  freed := []

/-! ## creating and connecting -/

/-- A pointer that a call is given, or that `malloc` returns, is as the predicate
says. -/
def require (p : Store L → Bool) : StoreM L Unit := do
  if ← read p then pure () else throw .undefined

/-- `s = suite_create(..)`. -/
def suiteCreate (s : SuiteId) : StoreM L Unit := do
  require fun st => s ∉ st.suites
  update fun st => ({ st with suites := s :: st.suites }).setTclst s Lists.empty

/-- `tc = tcase_create(..)`. -/
def tcaseCreate (tc : TCaseId) : StoreM L Unit := do
  require fun st => tc ∉ st.tcases
  update fun st => { st with tcases := tc :: st.tcases }

/-- `srunner_add_suite(sr, s)`. -/
def srunnerAddSuite (sr : RunnerId) (s : Option SuiteId) : StoreM L Unit :=
  match s with
  | none => pure ()
  | some s => do
      require fun st => sr ∈ st.runners ∧ s ∈ st.suites
      update fun st => st.setSlst sr (Lists.addEnd (st.slst sr) s)

/-- `sr = srunner_create(s)`. -/
def srunnerCreate (sr : RunnerId) (s : Option SuiteId) : StoreM L Unit := do
  require fun st => sr ∉ st.runners
  update fun st =>
    (({ st with runners := sr :: st.runners }).setSlst sr Lists.empty).setResultlst sr Lists.empty
  -- check_list_add_end(sr->slst, s), if s is not NULL
  srunnerAddSuite sr s

/-- `check_list_contains(s->tclst, tc)`. -/
def checkListContains (s : SuiteId) (tc : TCaseId) : StoreM L Bool := do
  let r ← Lists.forEach (fun st : Store L => st.tclst s) (Store.setTclst s) 0 fun v =>
    pure (if v = tc then some () else none)
  pure r.isSome

/-- `suite_add_tcase(s, tc)`. -/
def suiteAddTcase (s : Option SuiteId) (tc : Option TCaseId) : StoreM L Unit :=
  match s, tc with
  | some s, some tc => do
      require fun st => s ∈ st.suites ∧ tc ∈ st.tcases
      if ← checkListContains s tc then pure ()
      else update fun st => st.setTclst s (Lists.addEnd (st.tclst s) tc)
  | _, _ => pure ()

/-- A test of the runner has come to a result: `tr = tr_create()` and
`srunner_add_failure(sr, tr)`. -/
def srunnerAddFailure (sr : RunnerId) (tr : ResultId) : StoreM L Unit := do
  require fun st => sr ∈ st.runners ∧ tr ∉ st.results
  update fun st => ({ st with results := tr :: st.results }).setResultlst sr
    (Lists.addEnd (st.resultlst sr) tr)

/-! ## releasing -/

/-- `tcase_free`, `free(s)` in `suite_free`, and `tr_free`. -/
def free (o : Obj) : StoreM L Unit := update fun st => { st with freed := st.freed ++ [o] }

/-- `suite_free`. -/
def suiteFree (s : SuiteId) : StoreM L Unit := do
  let _ ← Lists.forEach (fun st : Store L => st.tclst s) (Store.setTclst s) 0 fun tc => do
    free (.tcase tc)
    pure (none : Option Unit)
  free (.suite s)

/-- `srunner_free`. -/
def srunnerFree (sr : RunnerId) : StoreM L Unit := do
  let _ ← Lists.forEach (fun st : Store L => st.slst sr) (Store.setSlst sr) 0 fun s => do
    suiteFree s
    pure (none : Option Unit)
  let _ ← Lists.forEach (fun st : Store L => st.resultlst sr) (Store.setResultlst sr) 0 fun tr => do
    free (.result tr)
    pure (none : Option Unit)

/-! ## programs -/

/-- One call; a call that creates an object names it. -/
inductive Call where
  | suiteCreate (s : SuiteId)
  | tcaseCreate (tc : TCaseId)
  | srunnerCreate (sr : RunnerId) (s : Option SuiteId)
  | srunnerAddSuite (sr : RunnerId) (s : Option SuiteId)
  | suiteAddTcase (s : Option SuiteId) (tc : Option TCaseId)
  | srunnerAddFailure (sr : RunnerId) (tr : ResultId)
deriving DecidableEq, Repr

/-- What a call does. -/
def Call.run : Call → StoreM L Unit
  | .suiteCreate s => Ownership.suiteCreate s
  | .tcaseCreate tc => Ownership.tcaseCreate tc
  | .srunnerCreate sr s => Ownership.srunnerCreate sr s
  | .srunnerAddSuite sr s => Ownership.srunnerAddSuite sr s
  | .suiteAddTcase s tc => Ownership.suiteAddTcase s tc
  | .srunnerAddFailure sr tr => Ownership.srunnerAddFailure sr tr

/-- The calls, made one after the other with pointers to objects that exist, lead to
the store. -/
inductive Built : List Call → Store L → Prop where
  | nil : Built [] .initial
  | snoc {calls : List Call} {st st' : Store L} (c : Call) (h : Built calls st)
      (hc : c.run st = .ok () st') : Built (calls ++ [c]) st'

end

/-- The suites that a call gives to the runner. -/
def Call.gives (sr : RunnerId) : Call → Option SuiteId
  | .srunnerCreate sr' s => if sr' = sr then s else none
  | .srunnerAddSuite sr' s => if sr' = sr then s else none
  | _ => none

/-- The suites that were given to the runner, in order. -/
def given (calls : List Call) (sr : RunnerId) : List SuiteId := calls.filterMap (Call.gives sr)

/-- The test case was added to the suite. -/
def Adds (calls : List Call) (s : SuiteId) (tc : TCaseId) : Prop :=
  .suiteAddTcase (some s) (some tc) ∈ calls

/-- No suite is given to the runner twice, and no test case is added to two of its
suites. -/
def OwnedOnce (calls : List Call) (sr : RunnerId) : Prop :=
  (given calls sr).Nodup ∧ ∀ s ∈ given calls sr, ∀ s' ∈ given calls sr, ∀ tc,
    Adds calls s tc → Adds calls s' tc → s = s'

/-! ## plain lists -/

/-- The store with its lists read off. -/
def Store.abs (st : Store CkList) : Store List where
  suites := st.suites
  tcases := st.tcases
  runners := st.runners
  results := st.results
  tclst s := (st.tclst s).elems
  slst sr := (st.slst sr).elems
  resultlst sr := (st.resultlst sr).elems
  freed := st.freed

/-- Programs that do the same on the lists of `check_list.c` and on plain ones. -/
abbrev Same (y : StoreM CkList α) (z : StoreM List α) : Prop :=
  Sim (fun st t => t = Store.abs st) y z

theorem elems_update {ι α : Type} [DecidableEq ι] (f : ι → CkList α) (i : ι) (l : CkList α) :
    (fun j => (Function.update f i l j).elems) = Function.update
    (fun j => (f j).elems) i l.elems := by
  funext j
  by_cases h : j = i
  · subst h
    rw [Function.update_self, Function.update_self]
  · rw [Function.update_of_ne h, Function.update_of_ne h]

theorem Store.abs_setTclst (s : SuiteId) (l : CkList TCaseId) (st : Store CkList) :
    (st.setTclst s l).abs = st.abs.setTclst s l.elems := by
  simp only [abs, setTclst, elems_update]

theorem Store.abs_setSlst (sr : RunnerId) (l : CkList SuiteId) (st : Store CkList) :
    (st.setSlst sr l).abs = st.abs.setSlst sr l.elems := by
  simp only [abs, setSlst, elems_update]

theorem Store.abs_setResultlst (sr : RunnerId) (l : CkList ResultId) (st : Store CkList) :
    (st.setResultlst sr l).abs = st.abs.setResultlst sr l.elems := by
  simp only [abs, setResultlst, elems_update]

theorem same_update {f : Store CkList → Store CkList} {g : Store List → Store List}
    (h : ∀ st, (f st).abs = g st.abs) : Same (update f) (update g) := by
  refine Sim.update fun st t ht => ?_
  rw [ht, h]

theorem same_require {p : Store CkList → Bool} {q : Store List → Bool}
    (h : ∀ st, p st = q st.abs) : Same (require p) (require q) := by
  refine Sim.bind (Sim.read fun st t ht => ?_) fun b => Sim.ite (Sim.pure _) (Sim.throw _)
  rw [ht, h]

theorem same_forTclst {s : SuiteId} {body : TCaseId → StoreM CkList (Option β)}
    {step : TCaseId → StoreM List (Option β)}
    (hkeep : ∀ tc, Keeps (fun st : Store CkList => st.tclst s) (body tc))
    (hbody : ∀ tc, Same (body tc) (step tc)) :
    Same (Lists.forEach (fun st : Store CkList => st.tclst s) (Store.setTclst s) 0 body)
      (Lists.forEach (fun st : Store List => st.tclst s) (Store.setTclst s) 0 step) := by
  refine Sim.lists 0 (fun l st => Function.update_self ..) ?_ ?_ hkeep hbody
  · rintro st t rfl
    rfl
  · rintro st t l rfl hl
    rw [Store.abs_setTclst, hl]
    exact (congrArg (fun f => { st.abs with tclst := f })
      (Function.update_eq_self s st.abs.tclst)).symm

theorem same_free (o : Obj) : Same (free o) (free o) := same_update fun _ => rfl

theorem same_suiteFree (s : SuiteId) : Same (suiteFree s) (suiteFree s) :=
  Sim.bind (same_forTclst (fun _ => Keeps.bind (Keeps.update fun _ => rfl) fun _ => Keeps.pure _)
    fun _ => Sim.bind (same_free _) fun _ => Sim.pure _) fun _ => same_free _

theorem keeps_slst_suiteFree (s : SuiteId) (sr : RunnerId) :
    Keeps (fun st : Store CkList => st.slst sr) (suiteFree s) :=
  Keeps.bind (Keeps.lists 0 (fun _ _ => rfl) fun _ =>
    Keeps.bind (Keeps.update fun _ => rfl) fun _ => Keeps.pure _) fun _ => Keeps.update fun _ => rfl

theorem same_srunnerFree (sr : RunnerId) : Same (srunnerFree sr) (srunnerFree sr) := by
  refine Sim.bind (Sim.lists 0 (fun l st => Function.update_self ..) ?_ ?_
    (fun s => Keeps.bind (keeps_slst_suiteFree s sr) fun _ => Keeps.pure _)
    fun s => Sim.bind (same_suiteFree s) fun _ => Sim.pure _) fun _ =>
      Sim.bind (Sim.lists 0 (fun l st => Function.update_self ..) ?_ ?_
        (fun _ => Keeps.bind (Keeps.update fun _ => rfl) fun _ => Keeps.pure _)
        fun _ => Sim.bind (same_free _) fun _ => Sim.pure _) fun _ => Sim.pure _
  · rintro st t rfl
    rfl
  · rintro st t l rfl hl
    rw [Store.abs_setSlst, hl]
    exact (congrArg (fun f => { st.abs with slst := f })
      (Function.update_eq_self sr st.abs.slst)).symm
  · rintro st t rfl
    rfl
  · rintro st t l rfl hl
    rw [Store.abs_setResultlst, hl]
    exact (congrArg (fun f => { st.abs with resultlst := f })
      (Function.update_eq_self sr st.abs.resultlst)).symm

theorem same_srunnerAddSuite (sr : RunnerId) (s : Option SuiteId) :
    Same (srunnerAddSuite sr s) (srunnerAddSuite sr s) := by
  cases s with
  | none => exact Sim.pure ()
  | some s =>
      refine Sim.bind (same_require fun _ => rfl) fun _ => same_update fun st => ?_
      rw [Store.abs_setSlst]
      exact congrArg (fun l => st.abs.setSlst sr l) (CkList.elems_addEnd _ s)

theorem same_run (c : Call) : Same c.run c.run := by
  cases c with
  | suiteCreate s =>
      refine Sim.bind (same_require fun _ => rfl) fun _ => same_update fun st => ?_
      rw [Store.abs_setTclst]
      rfl
  | tcaseCreate tc => exact Sim.bind (same_require fun _ => rfl) fun _ => same_update fun _ => rfl
  | srunnerCreate sr s =>
      refine Sim.bind (same_require fun _ => rfl) fun _ => Sim.bind (same_update fun st => ?_)
        fun _ => same_srunnerAddSuite sr s
      rw [Store.abs_setResultlst, Store.abs_setSlst]
      rfl
  | srunnerAddSuite sr s => exact same_srunnerAddSuite sr s
  | suiteAddTcase s tc =>
      match s, tc with
      | none, _ => exact Sim.pure ()
      | some s, none => exact Sim.pure ()
      | some s, some tc =>
          refine Sim.bind (same_require fun _ => rfl) fun _ => Sim.bind (Sim.bind (same_forTclst
            (fun _ => Keeps.pure _) fun _ => Sim.pure _) fun _ => Sim.pure _) fun b =>
              Sim.ite (Sim.pure _) (same_update fun st => ?_)
          rw [Store.abs_setTclst]
          exact congrArg (fun l => st.abs.setTclst s l) (CkList.elems_addEnd _ tc)
  | srunnerAddFailure sr tr =>
      refine Sim.bind (same_require fun _ => rfl) fun _ => same_update fun st => ?_
      rw [Store.abs_setResultlst]
      exact congrArg (fun l => Store.setResultlst sr l { st.abs with results := tr :: st.results })
        (CkList.elems_addEnd _ tr)

/-- The same calls lead to the same plain lists. -/
theorem Built.abs {calls : List Call} {st : Store CkList} (h : Built calls st) :
    Built calls st.abs := by
  induction h with
  | nil => exact .nil
  | snoc c h hc ih =>
      obtain ⟨t, ht, rfl⟩ := (same_run c).of_ok rfl hc
      exact .snoc c ih ht

/-! ## what is built -/

theorem given_snoc (calls : List Call) (c : Call) (sr : RunnerId) :
    given (calls ++ [c]) sr = given calls sr ++ (c.gives sr).toList := by
  rw [given, List.filterMap_append, given]
  cases h : c.gives sr <;> simp [h]

theorem adds_snoc (calls : List Call) (c : Call) (s : SuiteId) (tc : TCaseId) :
    Adds (calls ++ [c]) s tc ↔ Adds calls s tc ∨ c = .suiteAddTcase (some s) (some tc) := by
  rw [Adds, List.mem_append, List.mem_singleton, Adds, eq_comm (b := c)]

/-- The lists say what the calls have connected. -/
structure Inv (calls : List Call) (st : Store List) : Prop where
  slst : ∀ sr, st.slst sr = given calls sr
  runners : ∀ sr, sr ∉ st.runners → given calls sr = []
  tclst : ∀ s, (st.tclst s).Nodup ∧ ∀ tc, tc ∈ st.tclst s ↔ Adds calls s tc
  suites : ∀ s tc, Adds calls s tc → s ∈ st.suites
  results : ∀ sr, (st.resultlst sr).Nodup ∧ ∀ tr ∈ st.resultlst sr, tr ∈ st.results
  freed : st.freed = []

theorem require_ok {p : Store List → Bool} {st st' : Store List} (h : require p st = .ok () st') :
    p st = true ∧ st' = st := by
  rw [require, read_bind] at h
  split at h
  · next hp =>
      cases h
      exact ⟨hp, rfl⟩
  · cases h

theorem checkListContains_apply (s : SuiteId) (tc : TCaseId) (st : Store List) :
    checkListContains s tc st = .ok (decide (tc ∈ st.tclst s)) st := by
  have hloop : (st.tclst s).findSomeM?
      (fun v => pure (if v = tc then some () else none) : TCaseId → StoreM List (Option Unit)) st =
        .ok ((st.tclst s).findSome? fun v => if v = tc then some () else none) st :=
    findSomeM_eq fun _ _ => rfl
  have hmem : ((st.tclst s).findSome? fun v => if v = tc then some () else none).isSome =
      decide (tc ∈ st.tclst s) := by
    rw [Bool.eq_iff_iff, List.findSome?_isSome_iff, decide_eq_true_iff]
    constructor
    · rintro ⟨v, hv, hs⟩
      by_cases h : v = tc
      · rwa [← h]
      · rw [if_neg h] at hs
        cases hs
    · exact fun h => ⟨tc, h, by rw [if_pos rfl]; rfl⟩
  rw [← hmem]
  exact bind_of_ok _ hloop

theorem srunnerAddSuite_ok {sr : RunnerId} {s : Option SuiteId} {st st' : Store List}
    (h : srunnerAddSuite sr s st = .ok () st') :
    (∀ s' ∈ s, sr ∈ st.runners) ∧ st' = st.setSlst sr (st.slst sr ++ s.toList) := by
  cases s with
  | none =>
      cases h
      refine ⟨fun _ hs => (nomatch hs), ?_⟩
      rw [Option.toList_none, List.append_nil]
      exact (congrArg (fun f => { st with slst := f }) (Function.update_eq_self sr st.slst)).symm
  | some s =>
      obtain ⟨_, st1, hreq, hupdate⟩ := bind_eq_ok.mp h
      obtain ⟨hp, rfl⟩ := require_ok hreq
      cases hupdate
      exact ⟨fun _ _ => (of_decide_eq_true hp).1, rfl⟩

/-- A call that connects nothing. -/
theorem Inv.other {calls : List Call} {st : Store List} (h : Inv calls st) {c : Call}
    (hgives : ∀ sr, c.gives sr = none) (hadds : ∀ s tc, c ≠ .suiteAddTcase (some s) (some tc)) :
    Inv (calls ++ [c]) st where
  slst sr := by
    rw [given_snoc, hgives, Option.toList_none, List.append_nil]
    exact h.slst sr
  runners sr hsr := by
    rw [given_snoc, hgives, Option.toList_none, List.append_nil]
    exact h.runners sr hsr
  tclst s := by
    simp only [adds_snoc, hadds, or_false]
    exact h.tclst s
  suites s tc := by
    simp only [adds_snoc, hadds, or_false]
    exact h.suites s tc
  results := h.results
  freed := h.freed

/-- A suite gets an empty list. -/
theorem Inv.newSuite {calls : List Call} {st : Store List} (h : Inv calls st) {s : SuiteId}
    (hnew : s ∉ st.suites) : Inv calls (({ st with suites := s :: st.suites }).setTclst s []) where
  slst := h.slst
  runners := h.runners
  tclst s' := by
    show (Function.update st.tclst s [] s').Nodup ∧ ∀ tc, tc ∈ Function.update st.tclst s [] s' ↔ _
    by_cases hs : s' = s
    · subst hs
      rw [Function.update_self]
      refine ⟨List.nodup_nil, fun tc => iff_of_false List.not_mem_nil fun ha => ?_⟩
      exact hnew (h.suites s' tc ha)
    · rw [Function.update_of_ne hs]
      exact h.tclst s'
  suites s' tc ha := List.mem_cons_of_mem _ (h.suites s' tc ha)
  results := h.results
  freed := h.freed

/-- A runner gets two empty lists. -/
theorem Inv.newRunner {calls : List Call} {st : Store List} (h : Inv calls st) {sr : RunnerId}
    (hnew : sr ∉ st.runners) :
    Inv calls ((({ st with runners := sr :: st.runners }).setSlst sr []).setResultlst sr []) where
  slst sr' := by
    show Function.update st.slst sr [] sr' = _
    by_cases hsr : sr' = sr
    · subst hsr
      rw [Function.update_self, h.runners sr' hnew]
    · rw [Function.update_of_ne hsr]
      exact h.slst sr'
  runners sr' hsr' := h.runners sr' fun hm => hsr' (List.mem_cons_of_mem _ hm)
  tclst := h.tclst
  suites := h.suites
  results sr' := by
    show (Function.update st.resultlst sr [] sr').Nodup ∧
      ∀ tr ∈ Function.update st.resultlst sr [] sr', tr ∈ st.results
    by_cases hsr : sr' = sr
    · subst hsr
      rw [Function.update_self]
      exact ⟨List.nodup_nil, fun tr htr => absurd htr List.not_mem_nil⟩
    · rw [Function.update_of_ne hsr]
      exact h.results sr'
  freed := h.freed

/-- A runner gets the suite that is given to it. -/
theorem Inv.addSuite {calls : List Call} {st : Store List} (h : Inv calls st) {c : Call}
    {sr : RunnerId} {s : Option SuiteId} (hgives : ∀ sr',
      c.gives sr' = if sr = sr' then s else none)
    (hadds : ∀ s tc, c ≠ .suiteAddTcase (some s) (some tc)) (hsr : ∀ s' ∈ s, sr ∈ st.runners) :
    Inv (calls ++ [c]) (st.setSlst sr (st.slst sr ++ s.toList)) where
  slst sr' := by
    rw [given_snoc, hgives, ← h.slst]
    by_cases hsr' : sr = sr'
    · subst hsr'
      rw [if_pos rfl]
      exact Function.update_self ..
    · rw [if_neg hsr', Option.toList_none, List.append_nil]
      exact Function.update_of_ne (Ne.symm hsr') ..
  runners sr' hsr' := by
    rw [given_snoc, h.runners sr' hsr', hgives, List.nil_append]
    by_cases he : sr = sr'
    · subst he
      rw [if_pos rfl]
      cases s with
      | none => rfl
      | some s => exact absurd (hsr s rfl) hsr'
    · rw [if_neg he]
      rfl
  tclst s' := by
    simp only [adds_snoc, hadds, or_false]
    exact h.tclst s'
  suites s' tc := by
    simp only [adds_snoc, hadds, or_false]
    exact h.suites s' tc
  results := h.results
  freed := h.freed

/-- A suite gets the test case that is added to it, unless it has it already. -/
theorem Inv.addTcase {calls : List Call} {st : Store List} (h : Inv calls st) {s : SuiteId}
    {tc : TCaseId} (hs : s ∈ st.suites) (l : List TCaseId)
    (hl : l = if tc ∈ st.tclst s then st.tclst s else st.tclst s ++ [tc]) :
    Inv (calls ++ [.suiteAddTcase (some s) (some tc)]) (st.setTclst s l) where
  slst sr := by
    rw [given_snoc]
    simp only [Call.gives, Option.toList_none, List.append_nil]
    exact h.slst sr
  runners sr hsr := by
    rw [given_snoc]
    simp only [Call.gives, Option.toList_none, List.append_nil]
    exact h.runners sr hsr
  tclst s' := by
    show (Function.update st.tclst s l s').Nodup ∧ ∀ tc', tc' ∈ Function.update st.tclst s l s' ↔ _
    obtain ⟨hnodup, hmem⟩ := h.tclst s'
    simp only [adds_snoc, Call.suiteAddTcase.injEq, Option.some.injEq]
    by_cases hs' : s' = s
    · subst hs'
      rw [Function.update_self, hl]
      by_cases hold : tc ∈ st.tclst s'
      · rw [if_pos hold]
        refine ⟨hnodup, fun tc' => ?_⟩
        rw [hmem, iff_self_or]
        rintro ⟨-, rfl⟩
        exact (hmem _).mp hold
      · rw [if_neg hold]
        refine ⟨?_, fun tc' => ?_⟩
        · rw [← List.concat_eq_append]
          exact hnodup.concat hold
        · rw [List.mem_append, hmem, List.mem_singleton, eq_comm (a := tc')]
          simp
    · rw [Function.update_of_ne hs']
      refine ⟨hnodup, fun tc' => ?_⟩
      rw [hmem, iff_self_or]
      rintro ⟨rfl, -⟩
      exact absurd rfl hs'
  suites s' tc' ha := by
    rcases (adds_snoc ..).mp ha with ha | ha
    · exact h.suites s' tc' ha
    · cases ha
      exact hs
  results := h.results
  freed := h.freed

/-- A runner gets a result that is in no list. -/
theorem Inv.newResult {calls : List Call} {st : Store List} (h : Inv calls st) {tr : ResultId}
    (hnew : tr ∉ st.results) (sr : RunnerId) :
    Inv calls (({ st with results := tr :: st.results }).setResultlst sr
      (st.resultlst sr ++ [tr])) where
  slst := h.slst
  runners := h.runners
  tclst := h.tclst
  suites := h.suites
  results sr' := by
    show (Function.update st.resultlst sr _ sr').Nodup ∧
      ∀ r ∈ Function.update st.resultlst sr _ sr', r ∈ tr :: st.results
    obtain ⟨hnodup, hmem⟩ := h.results sr'
    by_cases hsr : sr' = sr
    · subst hsr
      rw [Function.update_self]
      refine ⟨?_, List.forall_mem_append.mpr ⟨?_, ?_⟩⟩
      · rw [← List.concat_eq_append]
        exact hnodup.concat fun hm => hnew (hmem tr hm)
      · exact fun r hr => List.mem_cons_of_mem _ (hmem r hr)
      · exact List.forall_mem_singleton.mpr List.mem_cons_self
    · rw [Function.update_of_ne hsr]
      exact ⟨hnodup, fun r hr => List.mem_cons_of_mem _ (hmem r hr)⟩
  freed := h.freed

/-- The invariant, call by call. -/
theorem Inv.step {calls : List Call} {st st' : Store List} (h : Inv calls st) {c : Call}
    (hc : c.run st = .ok () st') : Inv (calls ++ [c]) st' := by
  cases c with
  | suiteCreate s =>
      obtain ⟨_, st1, hreq, hupdate⟩ := bind_eq_ok.mp hc
      obtain ⟨hp, rfl⟩ := require_ok hreq
      cases hupdate
      exact (h.newSuite (of_decide_eq_true hp)).other (fun _ => rfl) fun _ _ he => nomatch he
  | tcaseCreate tc =>
      obtain ⟨_, st1, hreq, hupdate⟩ := bind_eq_ok.mp hc
      obtain ⟨-, rfl⟩ := require_ok hreq
      cases hupdate
      have hsame : Inv calls { st1 with tcases := tc :: st1.tcases } :=
        ⟨h.slst, h.runners, h.tclst, h.suites, h.results, h.freed⟩
      exact hsame.other (fun _ => rfl) fun _ _ he => nomatch he
  | srunnerCreate sr s =>
      obtain ⟨_, st1, hreq, hrest⟩ := bind_eq_ok.mp hc
      obtain ⟨hp, rfl⟩ := require_ok hreq
      rw [update_bind] at hrest
      obtain ⟨hsr, rfl⟩ := srunnerAddSuite_ok hrest
      exact (h.newRunner (of_decide_eq_true hp)).addSuite (fun _ => rfl)
        (fun _ _ he => nomatch he) hsr
  | srunnerAddSuite sr s =>
      obtain ⟨hsr, rfl⟩ := srunnerAddSuite_ok hc
      exact h.addSuite (fun _ => rfl) (fun _ _ he => nomatch he) hsr
  | suiteAddTcase s tc =>
      match s, tc with
      | none, _ =>
          cases hc
          exact h.other (fun _ => rfl) fun _ _ he => nomatch he
      | some s, none =>
          cases hc
          exact h.other (fun _ => rfl) fun _ _ he => nomatch he
      | some s, some tc =>
          obtain ⟨_, st1, hreq, hrest⟩ := bind_eq_ok.mp hc
          obtain ⟨hp, rfl⟩ := require_ok hreq
          rw [bind_of_ok _ (checkListContains_apply s tc st1)] at hrest
          have hs := (of_decide_eq_true hp).1
          by_cases hold : tc ∈ st1.tclst s
          · rw [if_pos (decide_eq_true hold)] at hrest
            have hself : st1.setTclst s (st1.tclst s) = st1 :=
              congrArg (fun f => { st1 with tclst := f }) (Function.update_eq_self s st1.tclst)
            have hadd := h.addTcase hs _ (if_pos hold).symm
            rw [hself] at hadd
            cases hrest
            exact hadd
          · rw [if_neg fun he => hold (of_decide_eq_true he)] at hrest
            cases hrest
            exact h.addTcase hs _ (if_neg hold).symm
  | srunnerAddFailure sr tr =>
      obtain ⟨_, st1, hreq, hupdate⟩ := bind_eq_ok.mp hc
      obtain ⟨hp, rfl⟩ := require_ok hreq
      cases hupdate
      exact (h.newResult (of_decide_eq_true hp).2 sr).other (fun _ => rfl) fun _ _ he => nomatch he

/-- The lists say what was connected, whatever was called. -/
theorem Built.inv {calls : List Call} {st : Store List} (h : Built calls st) : Inv calls st := by
  induction h with
  | nil =>
      exact ⟨fun _ => rfl, fun _ _ => rfl,
        fun _ => ⟨List.nodup_nil, fun _ => iff_of_false List.not_mem_nil List.not_mem_nil⟩,
        fun _ _ ha => absurd ha List.not_mem_nil,
        fun _ => ⟨List.nodup_nil, fun _ htr => absurd htr List.not_mem_nil⟩, rfl⟩
  | snoc c h hc ih => exact ih.step hc

/-! ## what is released -/

/-- A loop that releases something for each element. -/
theorem findSomeM_free (xs : List α) {body : α → StoreM List Unit} {objs : α → List Obj}
    {st : Store List}
    (h : ∀ x fr, body x { st with freed := fr } = .ok () { st with freed := fr ++ objs x })
    (fr : List Obj) :
    (xs.findSomeM? fun x => do
      body x
      pure (none : Option Unit) : StoreM List (Option Unit)) { st with freed := fr } =
        .ok none { st with freed := fr ++ xs.flatMap objs } := by
  induction xs generalizing fr with
  | nil =>
      rw [List.flatMap_nil, List.append_nil]
      rfl
  | cons x xs ih =>
      have hx : (do
          body x
          pure (none : Option Unit) : StoreM List (Option Unit)) { st with freed := fr } =
            .ok none { st with freed := fr ++ objs x } := bind_of_ok _ (h x fr)
      refine (bind_of_ok _ hx).trans ((ih (fr ++ objs x)).trans ?_)
      rw [List.flatMap_cons, List.append_assoc]

/-- What `suite_free` releases. -/
def Store.ofSuite (st : Store List) (s : SuiteId) : List Obj :=
  (st.tclst s).map Obj.tcase ++ [.suite s]

/-- What `srunner_free` releases. -/
def Store.ofRunner (st : Store List) (sr : RunnerId) : List Obj :=
  (st.slst sr).flatMap st.ofSuite ++ (st.resultlst sr).map Obj.result

theorem suiteFree_apply (st : Store List) (s : SuiteId) (fr : List Obj) :
    suiteFree s { st with freed := fr } = .ok () { st with freed := fr ++ st.ofSuite s } := by
  have htcase : ∀ tc fr, free (.tcase tc) { st with freed := fr } =
      .ok () { st with freed := fr ++ [.tcase tc] } := fun _ _ => rfl
  have hloop := findSomeM_free (st.tclst s) htcase fr
  rw [← List.map_eq_flatMap] at hloop
  refine (bind_of_ok _ hloop).trans ?_
  rw [Store.ofSuite, ← List.append_assoc]
  rfl

theorem srunnerFree_apply (st : Store List) (sr : RunnerId) :
    srunnerFree sr st = .ok () { st with freed := st.freed ++ st.ofRunner sr } := by
  have hresult : ∀ tr fr, free (.result tr) { st with freed := fr } =
      .ok () { st with freed := fr ++ [.result tr] } := fun _ _ => rfl
  have hsuites := findSomeM_free (st.slst sr) (suiteFree_apply st) st.freed
  have hresults := findSomeM_free (st.resultlst sr) hresult
    (st.freed ++ (st.slst sr).flatMap st.ofSuite)
  rw [← List.map_eq_flatMap] at hresults
  refine (bind_of_ok _ hsuites).trans ((bind_of_ok _ hresults).trans ?_)
  rw [Store.ofRunner, ← List.append_assoc]
  rfl

/-- Two suites have nothing in common that is released. -/
theorem disjoint_ofSuite {st : Store List} {s s' : SuiteId} :
    List.Disjoint (st.ofSuite s) (st.ofSuite s') ↔
      s ≠ s' ∧ ∀ tc ∈ st.tclst s, tc ∉ st.tclst s' := by
  simp only [List.Disjoint, Store.ofSuite, List.mem_append, List.mem_map, List.mem_singleton]
  constructor
  · intro h
    refine ⟨fun he => h (a := .suite s) (.inr rfl) (.inr (he ▸ rfl)), fun tc htc htc' => ?_⟩
    exact h (a := .tcase tc) (.inl ⟨tc, htc, rfl⟩) (.inl ⟨tc, htc', rfl⟩)
  · rintro ⟨hne, hdisj⟩ o (⟨tc, htc, rfl⟩ | rfl) (⟨tc', htc', he⟩ | he)
    · cases he
      exact hdisj tc htc htc'
    · cases he
    · cases he
    · cases he
      exact hne rfl

/-- Nothing is released twice if the suites are different and share no test case. -/
theorem ofRunner_nodup_iff {calls : List Call} {st : Store List} (h : Inv calls st)
    (sr : RunnerId) : (st.ofRunner sr).Nodup ↔ OwnedOnce calls sr := by
  have hsuite : ∀ s, (st.ofSuite s).Nodup := by
    intro s
    refine List.Nodup.append ((h.tclst s).1.map fun _ _ he => Obj.tcase.inj he)
      (List.nodup_singleton _) ?_
    intro o ho ho'
    obtain ⟨tc, -, rfl⟩ := List.mem_map.mp ho
    cases List.mem_singleton.mp ho'
  have hresults : ((st.resultlst sr).map Obj.result).Nodup :=
    (h.results sr).1.map fun _ _ he => Obj.result.inj he
  have hdisj : List.Disjoint ((st.slst sr).flatMap st.ofSuite)
      ((st.resultlst sr).map Obj.result) := by
    intro o ho ho'
    obtain ⟨tr, -, rfl⟩ := List.mem_map.mp ho'
    obtain ⟨s, -, ho⟩ := List.mem_flatMap.mp ho
    simp [Store.ofSuite] at ho
  have hparts : (st.ofRunner sr).Nodup ↔
      (st.slst sr).Pairwise fun s s' => List.Disjoint (st.ofSuite s) (st.ofSuite s') := by
    rw [Store.ofRunner, List.nodup_append', and_iff_left ⟨hresults, hdisj⟩, List.nodup_flatMap,
      and_iff_right fun s _ => hsuite s]
  rw [hparts, h.slst]
  simp only [disjoint_ofSuite, (h.tclst _).2, OwnedOnce]
  constructor
  · intro hp
    have hsymm : Std.Symm fun a b => a ≠ b ∧ ∀ tc, Adds calls a tc → ¬ Adds calls b tc :=
      ⟨fun a b hab => ⟨hab.1.symm, fun tc hb ha => hab.2 tc ha hb⟩⟩
    refine ⟨hp.imp fun hss => hss.1, fun s hs s' hs' tc ha ha' => ?_⟩
    by_contra hne
    exact (hp.forall hs hs' hne).2 tc ha ha'
  · rintro ⟨hnodup, honce⟩
    refine List.Nodup.pairwise_of_forall_ne hnodup fun s hs s' hs' hne => ⟨hne, fun tc ha ha' => ?_⟩
    exact hne (honce s hs s' hs' tc ha ha')

/-! ## the code -/

/-- **What `srunner_free` releases**: whatever was created and connected, no object is
released twice if and only if no suite was given to the runner twice and no test
case was added to two of its suites. -/
theorem srunnerFree_nodup_iff {calls : List Call} {st : Store CkList} (h : Built calls st)
    (sr : RunnerId) :
    ∃ st', srunnerFree sr st = .ok () st' ∧ (st'.freed.Nodup ↔ OwnedOnce calls sr) := by
  obtain ⟨st', hfree, habs⟩ := (same_srunnerFree sr).to_ok rfl (srunnerFree_apply st.abs sr)
  refine ⟨st', hfree, ?_⟩
  have hfreed : st'.freed = st.abs.freed ++ st.abs.ofRunner sr :=
    (congrArg Store.freed habs).symm
  rw [hfreed, h.abs.inv.freed, List.nil_append]
  exact ofRunner_nodup_iff h.abs.inv sr

/-- The calls, one after the other. -/
def runCalls {L : Type → Type} [Lists L] (calls : List Call) : StoreM L Unit :=
  calls.foldlM (fun _ c => c.run) ()

/-- Calls that return have built something. -/
theorem built_of_runCalls {L : Type → Type} [Lists L] {calls done : List Call} {st st' : Store L}
    (h : Built done st) (hrun : runCalls calls st = .ok () st') : Built (done ++ calls) st' := by
  induction calls generalizing done st with
  | nil =>
      cases hrun
      rwa [List.append_nil]
  | cons c calls ih =>
      rw [runCalls, List.foldlM_cons] at hrun
      obtain ⟨_, st1, hc, hrest⟩ := bind_eq_ok.mp hrun
      have hbuilt := ih (h.snoc c hc) hrest
      rwa [List.append_assoc] at hbuilt

namespace Sample

/-- Two suites with two test cases, one of which is added twice to its suite, and a
result. -/
def selective : List Call :=
  [.suiteCreate 1, .tcaseCreate 11, .tcaseCreate 12, .suiteAddTcase (some 1) (some 11),
    .suiteAddTcase (some 1) (some 12), .suiteAddTcase (some 1) (some 12), .suiteCreate 2,
    .tcaseCreate 21, .suiteAddTcase (some 2) (some 21), .srunnerCreate 0 (some 1),
    .srunnerAddSuite 0 (some 2), .srunnerAddFailure 0 5]

/-- The test cases of the first suite have names below 20, that of the second one is 21. -/
theorem ownedOnce_selective : OwnedOnce selective 0 := by
  have hgiven : given selective 0 = [1, 2] := rfl
  rw [OwnedOnce, hgiven]
  refine ⟨by decide, fun s hs s' hs' tc h h' => ?_⟩
  simp [Adds, selective] at hs hs' h h'
  grind

/-- A suite that is given to its runner twice. -/
def suiteTwice : List Call :=
  [.suiteCreate 1, .srunnerCreate 0 (some 1), .srunnerAddSuite 0 (some 1)]

end Sample

/-- The set-up of `check_check_selective.c`. -/
theorem srunnerFree_nodup_iff_selective :
    ∃ st st', Built Sample.selective (st : Store CkList) ∧ srunnerFree 0 st = .ok () st' ∧
      st'.freed.Nodup := by
  have hrun : (returned (runCalls Sample.selective (.initial : Store CkList))).map Prod.fst =
      some () := by
    decide +kernel
  obtain ⟨_, st, hst, -⟩ := ok_of_returned hrun
  have hbuilt : Built Sample.selective st := built_of_runCalls .nil hst
  obtain ⟨st', hfree, hiff⟩ := srunnerFree_nodup_iff hbuilt 0
  exact ⟨st, st', hbuilt, hfree, hiff.mpr Sample.ownedOnce_selective⟩

/-- The suite is released twice. -/
theorem suite_freed_twice :
    ∃ st st', Built Sample.suiteTwice (st : Store CkList) ∧ srunnerFree 0 st = .ok () st' ∧
      st'.freed = [.suite 1, .suite 1] ∧ ¬ st'.freed.Nodup := by
  have hrun : (returned ((do
      runCalls Sample.suiteTwice
      srunnerFree 0 : StoreM CkList Unit) .initial)).map (fun r => r.2.freed) =
        some [.suite 1, .suite 1] := by
    decide +kernel
  obtain ⟨_, st', h, hfreed⟩ := ok_of_returned hrun
  obtain ⟨_, st, hst, hfree⟩ := bind_eq_ok.mp h
  refine ⟨st, st', built_of_runCalls .nil hst, hfree, hfreed, ?_⟩
  rw [show st'.freed = _ from hfreed]
  decide

end LibCheck.Ownership
