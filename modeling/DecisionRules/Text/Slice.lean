import DecisionRules.Text.Span

/-!
# Texts measured in bytes

Rule texts are lists of characters here, while spans count the bytes of their UTF-8 encoding.
This module measures a text in bytes and cuts out the characters that a span covers.
-/

namespace DecisionRules
namespace Text

/-- The number of bytes of a text. -/
def byteWidth : List Char → Nat
  | [] => 0
  | char :: rest => char.utf8Size + byteWidth rest

/-- The text without the characters that begin in its first `count` bytes. -/
def dropBytes (count : Nat) : List Char → List Char
  | [] => []
  | char :: rest =>
    if count = 0 then char :: rest else dropBytes (count - char.utf8Size) rest

/-- The characters that lie wholly in the first `count` bytes of a text. -/
def takeBytes (count : Nat) : List Char → List Char
  | [] => []
  | char :: rest =>
    if char.utf8Size ≤ count then char :: takeBytes (count - char.utf8Size) rest else []

/-- The characters of a text that a span covers. -/
def slice (text : List Char) (span : Span) : List Char :=
  takeBytes (span.stop - span.start) (dropBytes span.start text)

@[simp] theorem byteWidth_nil : byteWidth [] = 0 := rfl

@[simp] theorem byteWidth_cons (char : Char) (rest : List Char) :
    byteWidth (char :: rest) = char.utf8Size + byteWidth rest := rfl

@[simp] theorem byteWidth_append (left right : List Char) :
    byteWidth (left ++ right) = byteWidth left + byteWidth right := by
  induction left with
  | nil => simp
  | cons char rest ih => simp [ih, Nat.add_assoc]

@[simp] theorem dropBytes_zero (text : List Char) : dropBytes 0 text = text := by
  cases text <;> rfl

/-- The bytes of a text's beginning are dropped with that beginning. -/
theorem dropBytes_append (left right : List Char) :
    dropBytes (byteWidth left) (left ++ right) = right := by
  induction left with
  | nil => simp
  | cons char rest ih =>
      have positive := char.utf8Size_pos
      have nonzero : char.utf8Size + byteWidth rest ≠ 0 := by omega
      have tail : char.utf8Size + byteWidth rest - char.utf8Size = byteWidth rest := by omega
      simp only [byteWidth_cons, List.cons_append, dropBytes, nonzero, if_false, tail, ih]

/-- The bytes of a text's beginning are that beginning. -/
theorem takeBytes_append (left right : List Char) :
    takeBytes (byteWidth left) (left ++ right) = left := by
  induction left with
  | nil =>
      cases right with
      | nil => rfl
      | cons char rest =>
          have positive := char.utf8Size_pos
          have tooWide : ¬ char.utf8Size ≤ 0 := by omega
          simp only [byteWidth_nil, List.nil_append, takeBytes, tooWide, if_false]
  | cons char rest ih =>
      have tail : char.utf8Size + byteWidth rest - char.utf8Size = byteWidth rest := by omega
      simp only [byteWidth_cons, List.cons_append, takeBytes, Nat.le_add_right, if_true, tail, ih]

/-- A span cut at its characters' boundaries covers exactly the text between them. -/
theorem slice_append (before covered after : List Char) :
    slice (before ++ covered ++ after)
        ⟨byteWidth before, byteWidth before + byteWidth covered⟩ =
      covered := by
  have width : byteWidth before + byteWidth covered - byteWidth before = byteWidth covered := by
    omega
  simp only [slice, width, List.append_assoc, dropBytes_append, takeBytes_append]

end Text
end DecisionRules
