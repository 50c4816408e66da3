/-!
# Byte offsets

Positions in a text count the bytes of its UTF-8 form. A text is cut only between two characters, so
a cut at an offset past the end or inside a character gives `none`.

* `fromOffset?_append`, `fromOffset?_append_cons`: a cut at the size of a first part gives the
  second part, and one a character further the rest behind that character.
* `cutAt?_append`: and its two parts are those two.
* `offsetOf?_append`: the offset of a character is the size of what stands before it.
-/

set_option autoImplicit false

namespace GitReadout.Text

/-- The size of a text in bytes. -/
def byteSize (s : List Char) : Nat :=
  s.foldr (fun c n => c.utf8Size + n) 0

/-- The bytes of a text. -/
def bytes (s : List Char) : List UInt8 :=
  s.flatMap String.utf8EncodeChar

/-- The text from byte offset `n` on; `none` when no character begins or the text ends there. -/
def fromOffset? : Nat → List Char → Option (List Char)
  | 0, s => some s
  | _ + 1, [] => none
  | n + 1, c :: s =>
    if c.utf8Size ≤ n + 1 then fromOffset? (n + 1 - c.utf8Size) s else none

/-- The text before and from byte offset `n`. -/
def cutAt? (n : Nat) (s : List Char) : Option (List Char × List Char) :=
  (fromOffset? n s).map fun rest => (s.take (s.length - rest.length), rest)

/-- The byte offset of the first `c`. -/
def offsetOf? (c : Char) (s : List Char) : Option Nat :=
  if c ∈ s then some (byteSize (s.takeWhile (· != c))) else none

@[simp] theorem byteSize_nil : byteSize [] = 0 := rfl

@[simp] theorem byteSize_cons (c : Char) (s : List Char) :
    byteSize (c :: s) = c.utf8Size + byteSize s := rfl

@[simp] theorem byteSize_append (s t : List Char) :
    byteSize (s ++ t) = byteSize s + byteSize t := by
  induction s with
  | nil => simp
  | cons c s ih => simp [ih, Nat.add_assoc]

theorem byteSize_pos_iff {s : List Char} : 0 < byteSize s ↔ s ≠ [] := by
  cases s with
  | nil => simp
  | cons c r =>
    have hc := Char.utf8Size_pos c
    simp only [byteSize_cons, ne_eq, reduceCtorEq, not_false_eq_true, iff_true]
    omega

@[simp] theorem fromOffset?_zero (s : List Char) : fromOffset? 0 s = some s := by
  cases s <;> rfl

theorem fromOffset?_append (s t : List Char) : fromOffset? (byteSize s) (s ++ t) = some t := by
  induction s with
  | nil => simp
  | cons c r ih =>
    have hpos : 0 < byteSize (c :: r) := byteSize_pos_iff.2 (List.cons_ne_nil c r)
    obtain ⟨n, hn⟩ : ∃ n, byteSize (c :: r) = n + 1 := ⟨byteSize (c :: r) - 1, by omega⟩
    rw [hn, List.cons_append, fromOffset?, ← hn, byteSize_cons, Nat.add_sub_cancel_left, ih]
    simp

theorem fromOffset?_append_cons (s : List Char) (c : Char) (t : List Char) :
    fromOffset? (byteSize s + c.utf8Size) (s ++ c :: t) = some t := by
  simpa using fromOffset?_append (s ++ [c]) t

theorem cutAt?_append (s t : List Char) : cutAt? (byteSize s) (s ++ t) = some (s, t) := by
  simp [cutAt?, fromOffset?_append]

theorem offsetOf?_append {c : Char} {s : List Char} (h : c ∉ s) (t : List Char) :
    offsetOf? c (s ++ c :: t) = some (byteSize s) := by
  have hd : ∀ x ∈ s, (x != c) = true := fun x hx => by
    simpa using fun e : x = c => h (e ▸ hx)
  simp [offsetOf?, List.takeWhile_append_of_pos hd]

end GitReadout.Text
