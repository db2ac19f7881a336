import LibCheck.Interleave
import Mathlib.Algebra.BigOperators.Fin

/-!
# LibCheck.ForkTree

Trees of processes that write to one log, over any kind of entries and of exit
statuses.  A process writes entries, forks children, and ends: with a status of
its own, or by waiting for one of its children, whose status decides its own.

* `Step` — one step of the tree, by whichever of its processes.
* `Run.outcome` — how the tree ends does not depend on the order of the steps.
* `Run.interleaves` — the log is an interleaving of what the processes write.
* `Run.due` — what the processes write that the root waits for is in the log.
* `exists_step`, `wellFounded_step` — the tree is never stuck, and it ends.
-/

namespace LibCheck.ForkTree

/-! ## programs -/

/-- What a process does from now on that has forked `n` children so far. -/
inductive Forking (α ε : Type) : Nat → Type where
  | write {n : Nat} (a : α) (rest : Forking α ε n) : Forking α ε n
  | fork {n : Nat} (child : Forking α ε 0) (rest : Forking α ε (n + 1)) : Forking α ε n
  /-- wait for a child, and end as its status says -/
  | wait {n : Nat} (i : Fin n) : Forking α ε n
  | stop {n : Nat} (e : ε) : Forking α ε n

/-- One more child. -/
def push {n : Nat} (kids : Fin n → β) (b : β) : Fin (n + 1) → β := @Fin.snoc n (fun _ => β) kids b

@[simp] theorem push_castSucc {n : Nat} (kids : Fin n → β) (b : β) (i : Fin n) :
    push kids b i.castSucc = kids i := Fin.snoc_castSucc ..

@[simp] theorem push_last {n : Nat} (kids : Fin n → β) (b : β) : push kids b (Fin.last n) = b :=
  Fin.snoc_last ..

theorem comp_push {n : Nat} (f : β → γ) (kids : Fin n → β) (b : β) :
    (fun i => f (push kids b i)) = push (fun i => f (kids i)) (f b) := by
  funext i
  refine Fin.lastCases ?_ (fun i => ?_) i <;> simp

namespace Forking

variable {α ε : Type} {n : Nat}

/-- How the process will end, if its children end as given: waiting for a child
turns its status `e` into `judge e`. -/
def outcome (judge : ε → ε) : {n : Nat} → (Fin n → ε) → Forking α ε n → ε
  | _, kids, .write _ rest => rest.outcome judge kids
  | _, kids, .fork child rest => rest.outcome judge (push kids (child.outcome judge Fin.elim0))
  | _, kids, .wait i => judge (kids i)
  | _, _, .stop e => e

/-- What is written before the process ends, whatever the order of the steps: by
itself and by the child it waits for. -/
def due : {n : Nat} → (Fin n → List α) → Forking α ε n → List α
  | _, kids, .write a rest => a :: rest.due kids
  | _, kids, .fork child rest => rest.due (push kids (child.due Fin.elim0))
  | _, kids, .wait i => kids i
  | _, _, .stop _ => []

/-- What the process at a path below this one writes; a path counts the children
of each process in the order of their forks. -/
def writes : {n : Nat} → Forking α ε n → List Nat → List α
  | _, .write a rest, [] => a :: rest.writes []
  | _, .write _ rest, i :: path => rest.writes (i :: path)
  | _, .fork _ rest, [] => rest.writes []
  | n, .fork child rest, i :: path => if i = n then child.writes path else rest.writes (i :: path)
  | _, .wait _, _ | _, .stop _, _ => []

/-- The number of steps. -/
def size : {n : Nat} → Forking α ε n → Nat
  | _, .write _ rest => rest.size + 1
  | _, .fork child rest => child.size + rest.size + 1
  | _, .wait _ | _, .stop _ => 1

end Forking

/-! ## trees -/

/-- A process with its children, of which it may be outlived. -/
inductive Process (α ε : Type) : Type where
  | running {n : Nat} (kids : Fin n → Process α ε) (code : Forking α ε n)
  | ended {n : Nat} (kids : Fin n → Process α ε) (e : ε)

namespace Process

variable {α ε : Type}

/-- A process that has not forked yet. -/
def start (code : Forking α ε 0) : Process α ε := .running Fin.elim0 code

/-- The exit status, once the process has ended. -/
def status : Process α ε → Option ε
  | .running _ _ => none
  | .ended _ e => some e

/-- How the process ends, or will end. -/
def outcome (judge : ε → ε) : Process α ε → ε
  | .running kids code => code.outcome judge fun i => (kids i).outcome judge
  | .ended _ e => e

/-- What is still to be written before the process ends. -/
def due : Process α ε → List α
  | .running kids code => code.due fun i => (kids i).due
  | .ended _ _ => []

/-- What the process at a path has not written yet. -/
def pending : Process α ε → List Nat → List α
  | .running _ code, [] => code.writes []
  | .ended _ _, [] => []
  | @running _ _ n kids code, i :: path =>
      if h : i < n then (kids ⟨i, h⟩).pending path else code.writes (i :: path)
  | @ended _ _ n kids _, i :: path => if h : i < n then (kids ⟨i, h⟩).pending path else []

/-- The number of steps that are left. -/
def size : Process α ε → Nat
  | .running kids code => (Finset.univ.sum fun i => (kids i).size) + code.size
  | .ended kids _ => Finset.univ.sum fun i => (kids i).size

end Process

/-- An entry of a child, as one of its parent's tree. -/
def under (i : Nat) (q : List Nat × α) : List Nat × α := (i :: q.1, q.2)

/-- One process of the tree makes a step; `out` is what it writes. -/
inductive Step {α ε : Type} (judge : ε → ε) :
    Process α ε → List (List Nat × α) → Process α ε → Prop where
  | write {n : Nat} (kids : Fin n → Process α ε) (a : α) (rest : Forking α ε n) :
      Step judge (.running kids (.write a rest)) [([], a)] (.running kids rest)
  | fork {n : Nat} (kids : Fin n → Process α ε) (child : Forking α ε 0)
      (rest : Forking α ε (n + 1)) :
      Step judge (.running kids (.fork child rest)) [] (.running (push kids (.start child)) rest)
  | wait {n : Nat} (kids : Fin n → Process α ε) (i : Fin n) {e : ε} (h : (kids i).status = some e) :
      Step judge (.running kids (.wait i)) [] (.ended kids (judge e))
  | stop {n : Nat} (kids : Fin n → Process α ε) (e : ε) :
      Step judge (.running kids (.stop e)) [] (.ended kids e)
  | runningKid {n : Nat} (kids : Fin n → Process α ε) (code : Forking α ε n) (i : Fin n)
      {out : List (List Nat × α)} {p : Process α ε} (h : Step judge (kids i) out p) :
      Step judge (.running kids code) (out.map (under i)) (.running (Function.update kids i p) code)
  | endedKid {n : Nat} (kids : Fin n → Process α ε) (e : ε) (i : Fin n)
      {out : List (List Nat × α)} {p : Process α ε} (h : Step judge (kids i) out p) :
      Step judge (.ended kids e) (out.map (under i)) (.ended (Function.update kids i p) e)

/-- Any number of steps, in any order; `log` is what was written. -/
inductive Run {α ε : Type} (judge : ε → ε) (p : Process α ε) :
    List (List Nat × α) → Process α ε → Prop where
  | refl : Run judge p [] p
  | step {log out : List (List Nat × α)} {q r : Process α ε} (h : Run judge p log q)
      (hstep : Step judge q out r) : Run judge p (log ++ out) r

section

variable {α ε : Type} {judge : ε → ε} {p q : Process α ε} {out log : List (List Nat × α)}

/-! ## how a tree ends -/

theorem Process.outcome_of_status {e : ε} (h : p.status = some e) : p.outcome judge = e := by
  cases p with
  | running kids code => cases h
  | ended kids e => exact Option.some.inj h

theorem Process.outcome_start (code : Forking α ε 0) :
    (Process.start code).outcome judge = code.outcome judge Fin.elim0 := by
  rw [start, outcome]
  congr 1
  exact Subsingleton.elim _ _

theorem comp_update {n : Nat} {β : Type} (f : Process α ε → β) (kids : Fin n → Process α ε)
    (i : Fin n) (p : Process α ε) :
    (fun j => f (Function.update kids i p j)) = Function.update (fun j => f (kids j)) i (f p) := by
  funext j
  by_cases hj : j = i
  · simp [hj]
  · simp [hj]

theorem Step.outcome (h : Step judge p out q) : q.outcome judge = p.outcome judge := by
  induction h with
  | write kids a rest => rfl
  | fork kids child rest =>
      simp only [Process.outcome, Forking.outcome, comp_push, Process.outcome_start]
  | wait kids i h => simp [Process.outcome, Forking.outcome, Process.outcome_of_status h]
  | stop kids e => rfl
  | runningKid kids code i h ih =>
      simp only [Process.outcome, comp_update, ih, Function.update_eq_self]
  | endedKid kids e i h ih => rfl

/-- The root ends with the status that its program determines. -/
theorem Run.outcome (h : Run judge p log q) : q.outcome judge = p.outcome judge := by
  induction h with
  | refl => rfl
  | step h hstep ih => rw [hstep.outcome, ih]

/-! ## what it writes -/

@[simp] theorem Process.pending_start (code : Forking α ε 0) (path : List Nat) :
    (Process.start code).pending path = code.writes path := by
  cases path <;> simp [Process.start, Process.pending]

@[simp] theorem own_map_under (i : Nat) (path : List Nat) (out : List (List Nat × α)) :
    own path (out.map (under i)) =
      match path with
      | [] => []
      | j :: path => if j = i then own path out else [] := by
  induction out with
  | nil => cases path <;> simp
  | cons q out ih =>
      cases path with
      | nil => rw [List.map_cons, under, own_cons_of_ne (by simp), ih]
      | cons j path =>
          by_cases hj : j = i
          · subst hj
            by_cases hq : q.1 = path
            · subst hq
              simp_all [under, own]
            · simp_all [under, own]
          · rw [List.map_cons, under, own_cons_of_ne (by simp [Ne.symm hj]), ih]
            simp [hj]

@[simp] theorem update_of_val_ne {n j : Nat} (kids : Fin n → Process α ε) {i : Fin n} {hn : j < n}
    (hj : j ≠ i.1) (p : Process α ε) : Function.update kids i p ⟨j, hn⟩ = kids ⟨j, hn⟩ :=
  Function.update_of_ne (by simpa [Fin.ext_iff] using hj) ..

/-- A step writes the next entry of its process. -/
theorem Step.pending (h : Step judge p out q) (path : List Nat) :
    own path out ++ q.pending path = p.pending path := by
  induction h generalizing path with
  | write kids a rest =>
      cases path with
      | nil => simp [Process.pending, Forking.writes]
      | cons i path => simp [Process.pending, Forking.writes, own]
  | @fork n kids child rest =>
      cases path with
      | nil => simp [Process.pending, Forking.writes]
      | cons i path =>
          rw [own_nil, List.nil_append]
          rcases Nat.lt_trichotomy i n with hi | rfl | hi
          · have hkid : push kids (.start child) ⟨i, by omega⟩ = kids ⟨i, hi⟩ :=
              push_castSucc kids _ ⟨i, hi⟩
            simp [Process.pending, hi, Nat.lt_succ_of_lt hi, hkid]
          · have hkid : push kids (.start child) ⟨i, by omega⟩ = .start child := push_last kids _
            simp [Process.pending, Forking.writes, hkid]
          · have hne : i ≠ n := by omega
            simp [Process.pending, Forking.writes, hne, Nat.not_lt.mpr hi, Nat.not_lt.mpr hi.le]
  | wait kids i h => cases path <;> simp [Process.pending, Forking.writes]
  | stop kids e => cases path <;> simp [Process.pending, Forking.writes]
  | @runningKid n kids code i out p h ih =>
      cases path with
      | nil => simp [Process.pending]
      | cons j path =>
          by_cases hj : j = i.1
          · subst hj
            simp [Process.pending, ih]
          · by_cases hn : j < n <;> simp [Process.pending, hj, hn]
  | @endedKid n kids e i out p h ih =>
      cases path with
      | nil => simp [Process.pending]
      | cons j path =>
          by_cases hj : j = i.1
          · subst hj
            simp [Process.pending, ih]
          · by_cases hn : j < n <;> simp [Process.pending, hj, hn]

theorem Run.pending (h : Run judge p log q) (path : List Nat) :
    own path log ++ q.pending path = p.pending path := by
  induction h with
  | refl => simp
  | step h hstep ih => rw [own_append, List.append_assoc, hstep.pending, ih]

theorem Process.pending_of_status {e : ε} (h : p.status = some e) : p.pending [] = [] := by
  cases p with
  | running kids code => cases h
  | ended kids e => rfl

/-- Every process writes its entries in its own order. -/
theorem Run.interleaves {code : Forking α ε 0} (h : Run judge (.start code) log q) :
    Interleaves code.writes log := by
  intro path
  rw [← Process.pending_start, ← h.pending path]
  exact List.prefix_append ..

theorem Process.due_of_status {e : ε} (h : p.status = some e) : p.due = [] := by
  cases p with
  | running kids code => cases h
  | ended kids e => rfl

theorem Process.due_start (code : Forking α ε 0) :
    (Process.start code).due = code.due Fin.elim0 := by
  rw [start, due]
  congr 1
  exact Subsingleton.elim _ _

theorem Forking.mem_due_of_imp {n : Nat} {a : α} {P : Prop} {kids kids' : Fin n → List α}
    (code : Forking α ε n) (hkids : ∀ i, a ∈ kids i → a ∈ kids' i ∨ P) (h : a ∈ code.due kids) :
    a ∈ code.due kids' ∨ P := by
  induction code with
  | write b rest ih =>
      rcases List.mem_cons.mp h with rfl | h
      · simp [due]
      · exact (ih hkids h).imp_left (List.mem_cons_of_mem b)
  | fork child rest _ ih =>
      refine ih (fun i hi => ?_) h
      induction i using Fin.lastCases with
      | last => simp_all
      | cast i => simpa using hkids i (by simpa using hi)
  | wait i => exact hkids i h
  | stop e => exact absurd h List.not_mem_nil

/-- What a step does not write stays due. -/
theorem Step.due (h : Step judge p out q) {a : α} (ha : a ∈ p.due) :
    a ∈ q.due ∨ ∃ path, (path, a) ∈ out := by
  induction h with
  | write kids b rest =>
      rcases List.mem_cons.mp ha with rfl | ha
      · exact .inr ⟨[], List.mem_singleton_self _⟩
      · exact .inl ha
  | fork kids child rest =>
      rw [Process.due, Forking.due] at ha
      rw [Process.due, comp_push, Process.due_start]
      exact .inl ha
  | wait kids i h =>
      rw [Process.due, Forking.due, Process.due_of_status h] at ha
      exact absurd ha List.not_mem_nil
  | stop kids e => exact absurd ha List.not_mem_nil
  | @runningKid n kids code i out p h ih =>
      refine Forking.mem_due_of_imp code (fun j hj => ?_) ha
      by_cases hji : j = i
      · subst hji
        rw [Function.update_self]
        exact (ih hj).imp_right fun ⟨path, hmem⟩ => ⟨_, List.mem_map_of_mem hmem⟩
      · rw [Function.update_of_ne hji]
        exact .inl hj
  | endedKid kids e i h ih => exact absurd ha List.not_mem_nil

theorem Run.due_or (h : Run judge p log q) {a : α} (ha : a ∈ p.due) :
    a ∈ q.due ∨ ∃ path, (path, a) ∈ log := by
  induction h with
  | refl => exact .inl ha
  | step h hstep ih =>
      rcases ih with hq | ⟨path, hmem⟩
      · exact (hstep.due hq).imp_right fun ⟨path, hmem⟩ => ⟨path, List.mem_append_right _ hmem⟩
      · exact .inr ⟨path, List.mem_append_left _ hmem⟩

/-- When the root has ended, all that was due is written. -/
theorem Run.due (h : Run judge p log q) {e : ε} (hq : q.status = some e) {a : α} (ha : a ∈ p.due) :
    ∃ path, (path, a) ∈ log := by
  simpa [Process.due_of_status hq] using h.due_or ha

/-! ## that it ends -/

/-- A tree whose root has not ended can make a step: processes wait for their
children only. -/
theorem exists_step (judge : ε → ε) (p : Process α ε) (h : p.status = none) :
    ∃ out q, Step judge p out q := by
  induction p with
  | running kids code ih =>
      cases code with
      | write a rest => exact ⟨_, _, .write kids a rest⟩
      | fork child rest => exact ⟨_, _, .fork kids child rest⟩
      | wait i =>
          cases hi : (kids i).status with
          | some e => exact ⟨_, _, .wait kids i hi⟩
          | none =>
              obtain ⟨out, q, hstep⟩ := ih i hi
              exact ⟨_, _, .runningKid kids _ i hstep⟩
      | stop e => exact ⟨_, _, .stop kids e⟩
  | ended kids e => cases h

theorem sum_update_add_one {n : Nat} {f : Fin n → Nat} {i : Fin n} {b : Nat} (h : b + 1 = f i) :
    Finset.univ.sum (Function.update f i b) + 1 = Finset.univ.sum f := by
  rw [Finset.sum_update_of_mem (Finset.mem_univ i), ← Finset.add_sum_erase _ f (Finset.mem_univ i),
    Finset.sdiff_singleton_eq_erase]
  omega

/-- Every step is one less to do. -/
theorem Step.size (h : Step judge p out q) : q.size + 1 = p.size := by
  induction h with
  | write kids a rest => simp [Process.size, Forking.size, Nat.add_assoc]
  | fork kids child rest =>
      simp [Process.size, Forking.size, Fin.sum_univ_castSucc, Process.start]
      omega
  | wait kids i h => rfl
  | stop kids e => rfl
  | runningKid kids code i h ih =>
      have hsum := sum_update_add_one (f := fun j => (kids j).size) ih
      simp only [Process.size, comp_update]
      omega
  | endedKid kids e i h ih =>
      have hsum := sum_update_add_one (f := fun j => (kids j).size) ih
      simp only [Process.size, comp_update]
      omega

/-- No tree goes on for ever. -/
theorem wellFounded_step (judge : ε → ε) :
    WellFounded fun q p : Process α ε => ∃ out, Step judge p out q := by
  refine Subrelation.wf (fun {q p} hstep => ?_) (measure Process.size).wf
  obtain ⟨out, hstep⟩ := hstep
  have hsize := hstep.size
  show q.size < p.size
  omega

theorem Run.trans {log' : List (List Nat × α)} {r : Process α ε} (h : Run judge p log q)
    (h' : Run judge q log' r) : Run judge p (log ++ log') r := by
  induction h' with
  | refl => simpa using h
  | step _ hstep ih => simpa using ih.step hstep

/-- Wherever a run is, it can be continued until the root has ended. -/
theorem exists_run_ended (judge : ε → ε) (q : Process α ε) :
    ∃ log r, Run judge q log r ∧ r.status = some (q.outcome judge) := by
  induction q using (wellFounded_step judge).induction with
  | _ q ih =>
      cases hq : q.status with
      | some e => exact ⟨[], q, .refl, hq.trans (congrArg some (q.outcome_of_status hq).symm)⟩
      | none =>
          obtain ⟨out, q', hstep⟩ := exists_step judge q hq
          obtain ⟨log, r, hrun, hr⟩ := ih q' ⟨out, hstep⟩
          exact ⟨_, r, (Run.refl.step hstep).trans hrun, hr.trans (by rw [hstep.outcome])⟩

end

end LibCheck.ForkTree
