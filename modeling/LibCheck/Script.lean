/-!
# LibCheck.Script

Processes that send messages and may be killed on the way.

A script says what a process is to do: it sends messages, passes points where it may be
killed, and ends.  `play` is what is done of it by a process that has a limited time to
live, and that ends early when one of its messages is refused.

* `play_append` — a script is played one part after the other.
* `mem_of_mem_play` — what is sent stands in the script.

Nothing here is about a particular program; the module depends only on the Lean 4 core
library.
-/

namespace LibCheck.Script

variable {μ κ ε : Type}

/-- A step of a process.  It may be killed where it sends a message or passes a point. -/
inductive Step (μ ε : Type) where
  | send (m : μ)
  | pass
  | stop (e : ε)

/-- Which messages are accepted, and how a process ends that is refused one or killed. -/
structure Rules (μ κ ε : Type) where
  accepts : μ → Bool
  refused : ε
  killed : κ → ε

variable (r : Rules μ κ ε)

/-- One step less to live: a process with no time limit is `none`. -/
def burn : Option (Nat × κ) → Except ε (Option (Nat × κ))
  | none => .ok none
  | some (0, k) => .error (r.killed k)
  | some (n + 1, k) => .ok (some (n, k))

/-- The messages that are sent, and how the process ends or what it has left to live. -/
def play : Option (Nat × κ) → List (Step μ ε) → List μ × Except ε (Option (Nat × κ))
  | k, [] => ([], .ok k)
  | _, .stop e :: _ => ([], .error e)
  | k, .pass :: ks =>
      match burn r k with
      | .ok k => play k ks
      | .error e => ([], .error e)
  | k, .send m :: ks =>
      match burn r k with
      | .ok k => if r.accepts m then (m :: (play k ks).1, (play k ks).2) else ([], .error r.refused)
      | .error e => ([], .error e)

variable {r}

/-- The second part is played by a process that has not ended in the first one. -/
theorem play_append (k : Option (Nat × κ)) (ks ks' : List (Step μ ε)) :
    play r k (ks ++ ks') =
      match (play r k ks).2 with
      | .ok k' => ((play r k ks).1 ++ (play r k' ks').1, (play r k' ks').2)
      | .error e => ((play r k ks).1, .error e) := by
  induction ks generalizing k with
  | nil => simp [play]
  | cons step ks ih =>
      cases step with
      | stop e => simp [play]
      | pass =>
          cases hb : burn r k with
          | error e => simp [play, hb]
          | ok k' => simp [play, hb, ih]
      | send m =>
          cases hb : burn r k with
          | error e => simp [play, hb]
          | ok k' =>
              cases hm : r.accepts m with
              | false => simp [play, hb, hm]
              | true => cases hp : (play r k' ks).2 <;> simp [play, hb, hm, ih, hp]

/-- Only messages of the script are sent. -/
theorem mem_of_mem_play {k : Option (Nat × κ)} {ks : List (Step μ ε)} {m : μ}
    (h : m ∈ (play r k ks).1) : .send m ∈ ks := by
  induction ks generalizing k with
  | nil => simp [play] at h
  | cons step ks ih =>
      cases step with
      | stop e => simp [play] at h
      | pass =>
          cases hb : burn r k with
          | error e => simp [play, hb] at h
          | ok k' => exact List.mem_cons_of_mem _ (ih (by simpa [play, hb] using h))
      | send m' =>
          cases hb : burn r k with
          | error e => simp [play, hb] at h
          | ok k' =>
              cases hm : r.accepts m' with
              | false => simp [play, hb, hm] at h
              | true =>
                  have hmem : m = m' ∨ m ∈ (play r k' ks).1 := by simpa [play, hb, hm] using h
                  rcases hmem with rfl | hmem
                  · exact List.mem_cons_self
                  · exact List.mem_cons_of_mem _ (ih hmem)

end LibCheck.Script
