/-! Texts measured in bytes of their UTF-8 form. Every position in a document is a byte offset, and a
text can be cut only between two of its characters. -/
namespace Keyfile.Text

/-- Length of a text in bytes. -/
def bytes : List Char → Nat
  | [] => 0
  | c :: cs => c.utf8Size + bytes cs

@[simp] theorem bytes_nil : bytes [] = 0 := rfl
@[simp] theorem bytes_cons (c : Char) (cs : List Char) : bytes (c :: cs) = c.utf8Size + bytes cs := rfl

@[simp] theorem bytes_append (a b : List Char) : bytes (a ++ b) = bytes a + bytes b := by
  induction a with
  | nil => simp
  | cons c a ih => simp [ih, Nat.add_assoc]

/-- The two parts of a text around its `n`-th byte. There are none when `n` is past the end or inside
a character. -/
def cut? : List Char → Nat → Option (List Char × List Char)
  | cs, 0 => some ([], cs)
  | [], _ + 1 => none
  | c :: cs, n + 1 =>
    if c.utf8Size ≤ n + 1 then
      (cut? cs (n + 1 - c.utf8Size)).map fun (front, back) => (c :: front, back)
    else none

@[simp] theorem cut?_zero (cs : List Char) : cut? cs 0 = some ([], cs) := by
  cases cs <;> rfl

/-- A text is cut back into the two parts it was put together from. -/
theorem cut?_append (a b : List Char) : cut? (a ++ b) (bytes a) = some (a, b) := by
  induction a with
  | nil => simp
  | cons c a ih =>
    have pos : 0 < c.utf8Size := c.utf8Size_pos
    obtain ⟨n, hn⟩ : ∃ n, c.utf8Size + bytes a = n + 1 := ⟨c.utf8Size + bytes a - 1, by omega⟩
    rw [List.cons_append, bytes_cons, hn, cut?, if_pos (by omega)]
    rw [show n + 1 - c.utf8Size = bytes a by omega, ih]
    rfl

/-- The parts of a cut give the text back, and the first has the length asked for. -/
theorem eq_append_of_cut? {cs a b : List Char} {n : Nat} (h : cut? cs n = some (a, b)) :
    cs = a ++ b ∧ bytes a = n := by
  induction cs generalizing n a with
  | nil => cases n <;> simp_all [cut?]
  | cons c cs ih =>
    cases n with
    | zero => simp_all [cut?]
    | succ n =>
      rw [cut?] at h
      split at h
      next small =>
        obtain ⟨⟨front, back⟩, found, same⟩ := Option.map_eq_some_iff.1 h
        simp only [Prod.mk.injEq] at same
        obtain ⟨rfl, rfl⟩ := same
        obtain ⟨rfl, len⟩ := ih found
        exact ⟨rfl, by simp [len]; omega⟩
      next => simp at h

/-- Whether `n` bytes end between two characters of the text, or at one of its ends. -/
def isBoundary (cs : List Char) (n : Nat) : Bool := (cut? cs n).isSome

/-- The byte offsets of a character in a text that starts at `offset`. -/
def offsetsOf (c : Char) (offset : Nat) : List Char → List Nat
  | [] => []
  | x :: xs => (if x = c then [offset] else []) ++ offsetsOf c (offset + x.utf8Size) xs

theorem offsetsOf_append (c : Char) (offset : Nat) (xs ys : List Char) :
    offsetsOf c offset (xs ++ ys) = offsetsOf c offset xs ++ offsetsOf c (offset + bytes xs) ys := by
  induction xs generalizing offset with
  | nil => rfl
  | cons x xs ih => simp [offsetsOf, ih, Nat.add_assoc]

theorem offsetsOf_of_notMem {c : Char} {xs : List Char} (h : c ∉ xs) (offset : Nat) :
    offsetsOf c offset xs = [] := by
  induction xs generalizing offset with
  | nil => rfl
  | cons x xs ih =>
    rw [List.mem_cons, not_or] at h
    rw [offsetsOf, if_neg (Ne.symm h.1), ih h.2]
    rfl

/-- A text that starts later has its characters later. -/
theorem offsetsOf_add (c : Char) (offset more : Nat) (xs : List Char) :
    offsetsOf c (offset + more) xs = (offsetsOf c offset xs).map (· + more) := by
  induction xs generalizing offset with
  | nil => rfl
  | cons x xs ih =>
    rw [offsetsOf, offsetsOf, Nat.add_right_comm, ih, List.map_append]
    split <;> rfl

end Keyfile.Text
