/-!
# LibCheck.CLiteral

A reader of string literals as C has them, without trigraphs: what a literal
denotes, and the text that is left after its closing quote.

* `literal` — the reader; a literal that a newline or the end of the text cuts
  off is refused, and so is an escape sequence that C does not have.
* `Reads` — what the inside of a literal denotes; one rule for each way to write
  a character.
-/

namespace LibCheck.CLiteral

/-! ## escape sequences -/

/-- `simple-escape-sequence`, after its backslash. -/
def simpleEscape : Char → Option Char
  | '\'' => some '\''
  | '"' => some '"'
  | '?' => some '?'
  | '\\' => some '\\'
  | 'a' => some '\x07'
  | 'b' => some '\x08'
  | 'f' => some '\x0c'
  | 'n' => some '\n'
  | 'r' => some '\r'
  | 't' => some '\t'
  | 'v' => some '\x0b'
  | _ => none

def isOctal (c : Char) : Bool := '0' ≤ c && c ≤ '7'

def isHex (c : Char) : Bool :=
  c.isDigit || ('a' ≤ c && c ≤ 'f') || ('A' ≤ c && c ≤ 'F')

/-- The value of a digit. -/
def digit (c : Char) : Nat :=
  if c.isDigit then c.toNat - 48 else if c.toNat < 97 then c.toNat - 55 else c.toNat - 87

/-- The value of a sequence of digits. -/
def number (base : Nat) (ds : List Char) : Nat := ds.foldl (fun n c => n * base + digit c) 0

/-- The character with a given number, up to a greatest number. -/
def charUpTo (greatest n : Nat) : Option Char :=
  if n ≤ greatest ∧ n.isValidChar then some (Char.ofNat n) else none

/-- `universal-character-name` of a given number of digits. -/
def universal (len : Nat) (cs : List Char) : Option (Char × List Char) :=
  if (cs.take len).length = len ∧ (cs.take len).all isHex then
    (charUpTo 0x10FFFF (number 16 (cs.take len))).map fun d => (d, cs.drop len)
  else none

/-- An escape sequence, after its backslash. -/
def escape : List Char → Option (Char × List Char)
  | [] => none
  | c :: cs =>
      match simpleEscape c with
      | some d => some (d, cs)
      | none =>
          if isOctal c then
            let ds := ((c :: cs).take 3).takeWhile isOctal
            (charUpTo 255 (number 8 ds)).map fun d => (d, (c :: cs).drop ds.length)
          else if c = 'x' then
            let ds := cs.takeWhile isHex
            if ds = [] then none
            else (charUpTo 255 (number 16 ds)).map fun d => (d, cs.drop ds.length)
          else if c = 'u' then universal 4 cs
          else if c = 'U' then universal 8 cs
          else none

/-! ## literals -/

/-- The inside of a literal up to its closing quote: what it denotes, and what
follows. -/
def inside : Nat → List Char → Option (List Char × List Char)
  | 0, _ => none
  | _ + 1, [] => none
  | n + 1, c :: cs =>
      if c = '"' then some ([], cs)
      else if c = '\n' then none
      else if c = '\\' then do
        let (d, cs) ← escape cs
        let (ds, cs) ← inside n cs
        some (d :: ds, cs)
      else do
        let (ds, cs) ← inside n cs
        some (c :: ds, cs)

/-- A string literal: what it denotes, and what follows. -/
def literal : List Char → Option (List Char × List Char)
  | '"' :: cs => inside (cs.length + 1) cs
  | _ => none

/-! ## rules -/

/-- The inside `cs` of a literal denotes `ds`, up to `rest` after its quote. -/
def Reads (cs ds rest : List Char) : Prop :=
  ∀ n, cs.length < n → inside n cs = some (ds, rest)

namespace Reads

theorem quote (rest : List Char) : Reads ('"' :: rest) [] rest := by
  intro n hn
  cases n with
  | zero => omega
  | succ n => rfl

theorem char {c : Char} {cs ds rest : List Char} (hquote : c ≠ '"') (hnewline : c ≠ '\n')
    (hback : c ≠ '\\') (h : Reads cs ds rest) : Reads (c :: cs) (c :: ds) rest := by
  intro n hn
  cases n with
  | zero => omega
  | succ n =>
      have hcs := h n (by simpa using hn)
      unfold inside
      simp [hquote, hnewline, hback, hcs]

theorem simpleEscape {c d : Char} {cs ds rest : List Char} (hc : CLiteral.simpleEscape c = some d)
    (h : Reads cs ds rest) : Reads ('\\' :: c :: cs) (d :: ds) rest := by
  intro n hn
  cases n with
  | zero => omega
  | succ n =>
      have hcs := h n (by simp at hn; omega)
      unfold inside
      simp [escape, hc, hcs]

end Reads

theorem literal_of_reads {cs ds rest : List Char} (h : Reads cs ds rest) :
    literal ('"' :: cs) = some (ds, rest) := h _ (Nat.lt_succ_self _)

end LibCheck.CLiteral
