import KernelLaunch.Proofs.Json.Numbers
/-!
# The pretty layout as bytes

The pretty printer puts each item of an array and each member of an object on a line of its own:
a line break and two blanks per level (a `gap`) stand before each of them and before the closing
bracket, a comma after each but the last. This module gives those texts as bytes
(`utf8_prettyAt_arr`, `utf8_prettyAt_obj`), says that no value's text starts with a blank or
with a byte that closes or separates (`prettyAt_head`), and measures how deeply a value nests
arrays and objects (`Json.depth`), which is what the reader's nesting allowance counts.
-/

namespace KernelLaunch

namespace Json

mutual
/-- How deeply a value nests arrays and objects; an empty one counts as a level. -/
def depth : Json → Nat
  | .arr items => depthItems items + 1
  | .obj ms => depthMembers ms + 1
  | _ => 0

/-- The deepest nesting among items. -/
def depthItems : List Json → Nat
  | [] => 0
  | j :: js => max (depth j) (depthItems js)

/-- The deepest nesting among the values of members. -/
def depthMembers : List (String × Json) → Nat
  | [] => 0
  | (_, j) :: ms => max (depth j) (depthMembers ms)
end

theorem obj_ne_null (ms : List (String × Json)) : Json.obj ms ≠ .null := fun h => Json.noConfusion h

theorem arr_ne_null (js : List Json) : Json.arr js ≠ .null := fun h => Json.noConfusion h

theorem nat_ne_null (n : Nat) : Json.nat n ≠ .null := fun h => Json.noConfusion h

theorem str_ne_null (s : String) : Json.str s ≠ .null := fun h => Json.noConfusion h

theorem depth_le_depthItems {j : Json} : ∀ {js : List Json}, j ∈ js → j.depth ≤ depthItems js
  | _ :: _, .head _ => by simp only [depthItems]; omega
  | _ :: _, .tail _ h => by have := depth_le_depthItems h; simp only [depthItems]; omega

theorem depth_le_depthMembers {k : String} {j : Json} :
    ∀ {ms : List (String × Json)}, (k, j) ∈ ms → j.depth ≤ depthMembers ms
  | _ :: _, .head _ => by simp only [depthMembers]; omega
  | _ :: _, .tail _ h => by have := depth_le_depthMembers h; simp only [depthMembers]; omega

end Json

namespace Reader

/-! ## Gaps -/

/-- A line break and the indentation of a level: what stands before each item or member, and
before the closing bracket. -/
def gap (level : Nat) : List UInt8 := utf8 ("\n" ++ Json.indent level)

theorem utf8_indent (level : Nat) : utf8 (Json.indent level) = List.replicate (2 * level) 32 := by
  induction level with
  | zero => rfl
  | succ n ih =>
      simp only [Json.indent, List.replicate_succ, String.join_cons, utf8_append] at ih ⊢
      rw [ih, show utf8 "  " = [32, 32] by decide, show 2 * (n + 1) = 2 * n + 1 + 1 by omega]
      simp [List.replicate_succ]

theorem gap_eq (level : Nat) : gap level = 10 :: List.replicate (2 * level) 32 := by
  rw [gap, utf8_append, utf8_indent]
  rfl

theorem blank_gap (level : Nat) : Blank (gap level) := by
  intro b hb
  rw [gap_eq] at hb
  rcases List.mem_cons.mp hb with rfl | hb
  · rfl
  · rw [(List.mem_replicate.mp hb).2]
    rfl

/-! ## Arrays -/

/-- The items after the first: each after a comma and a gap. -/
def moreItems (level : Nat) (js : List Json) : List UInt8 :=
  js.flatMap fun j => 44 :: gap level ++ utf8 (Json.prettyAt level j)

/-- The bytes between the brackets of an array printed at a level. -/
def itemsBytes (level : Nat) : List Json → List UInt8
  | [] => []
  | j :: js => gap (level + 1) ++ utf8 (Json.prettyAt (level + 1) j) ++ moreItems (level + 1) js ++ gap level

theorem utf8_prettyItems (level : Nat) (j : Json) : ∀ js : List Json,
    10 :: utf8 (Json.prettyItems level (j :: js)) = gap level ++ utf8 (Json.prettyAt level j) ++ moreItems level js
  | [] => by simp [Json.prettyItems, moreItems, gap, show utf8 "\n" = [10] by decide]
  | j' :: js => by
      have ih := utf8_prettyItems level j' js
      simp only [Json.prettyItems, utf8_append] at ih ⊢
      rw [show utf8 ",\n" = [44, 10] by decide]
      simp only [moreItems, List.flatMap_cons, List.cons_append, List.append_assoc, gap, utf8_append] at ih ⊢
      rw [show utf8 "\n" = [10] by decide] at ih ⊢
      simp only [List.cons_append, List.nil_append, List.cons.injEq, true_and] at ih ⊢
      rw [← ih]

/-- An array is its items between brackets. -/
theorem utf8_prettyAt_arr (level : Nat) : ∀ js : List Json,
    utf8 (Json.prettyAt level (.arr js)) = 91 :: itemsBytes level js ++ [93]
  | [] => by
      simp only [Json.prettyAt, itemsBytes]
      decide
  | j :: js => by
      have h := utf8_prettyItems (level + 1) j js
      simp only [Json.prettyAt, utf8_append, itemsBytes]
      rw [show utf8 "[\n" = [91, 10] by decide, show utf8 "]" = [93] by decide, show utf8 "\n" = [10] by decide,
        ← h]
      simp [gap, utf8_append, show utf8 "\n" = [10] by decide]

/-! ## Objects -/

/-- A member: its key, a colon and a blank, its value. -/
def memberBytes (level : Nat) (m : String × Json) : List UInt8 :=
  utf8 (Json.quote m.1) ++ [58, 32] ++ utf8 (Json.prettyAt level m.2)

/-- The members after the first: each after a comma and a gap. -/
def moreMembers (level : Nat) (ms : List (String × Json)) : List UInt8 :=
  ms.flatMap fun m => 44 :: gap level ++ memberBytes level m

/-- The bytes between the braces of an object printed at a level. -/
def membersBytes (level : Nat) : List (String × Json) → List UInt8
  | [] => []
  | m :: ms => gap (level + 1) ++ memberBytes (level + 1) m ++ moreMembers (level + 1) ms ++ gap level

theorem utf8_prettyMembers (level : Nat) (m : String × Json) : ∀ ms : List (String × Json),
    10 :: utf8 (Json.prettyMembers level (m :: ms)) = gap level ++ memberBytes level m ++ moreMembers level ms
  | [] => by
      obtain ⟨k, j⟩ := m
      simp [Json.prettyMembers, moreMembers, memberBytes, gap, show utf8 ": " = [58, 32] by decide,
        show utf8 "\n" = [10] by decide]
  | m' :: ms => by
      obtain ⟨k, j⟩ := m
      have ih := utf8_prettyMembers level m' ms
      simp only [Json.prettyMembers, utf8_append] at ih ⊢
      rw [show utf8 ",\n" = [44, 10] by decide, show utf8 ": " = [58, 32] by decide]
      simp only [moreMembers, memberBytes, List.flatMap_cons, List.cons_append, List.append_assoc, gap,
        utf8_append] at ih ⊢
      rw [show utf8 "\n" = [10] by decide] at ih ⊢
      simp only [List.cons_append, List.nil_append, List.cons.injEq, true_and] at ih ⊢
      rw [← ih]

/-- An object is its members between braces. -/
theorem utf8_prettyAt_obj (level : Nat) : ∀ ms : List (String × Json),
    utf8 (Json.prettyAt level (.obj ms)) = 123 :: membersBytes level ms ++ [125]
  | [] => by
      simp only [Json.prettyAt, membersBytes]
      decide
  | m :: ms => by
      have h := utf8_prettyMembers (level + 1) m ms
      simp only [Json.prettyAt, utf8_append, membersBytes]
      rw [show utf8 "\x7b\n" = [123, 10] by decide, show utf8 "\x7d" = [125] by decide,
        show utf8 "\n" = [10] by decide, ← h]
      simp [gap, utf8_append, show utf8 "\n" = [10] by decide]

/-! ## The first byte of a value -/

/-- Atoms print the same at every level. -/
theorem prettyAt_nat (level n : Nat) : Json.prettyAt level (Json.nat n) = toString n := by
  simp only [Json.nat, Json.prettyAt, Json.compact]
  rfl

theorem prettyAt_str (level : Nat) (s : String) : Json.prettyAt level (.str s) = Json.quote s := by
  simp only [Json.prettyAt, Json.compact]

theorem prettyAt_bool (level : Nat) (b : Bool) :
    Json.prettyAt level (.bool b) = if b then "true" else "false" := by
  cases b <;> simp only [Json.prettyAt, Json.compact] <;> rfl

theorem prettyAt_null (level : Nat) : Json.prettyAt level .null = "null" := by
  simp only [Json.prettyAt, Json.compact]

/-- An integer starts with a digit or a minus sign. -/
theorem utf8_toString_int_head (n : Int) : ∃ b t, utf8 (toString n) = b :: t ∧ (isDigit b = true ∨ b = 45) := by
  cases n with
  | ofNat m =>
      obtain ⟨b, t, h, hb⟩ := utf8_toString_head m
      exact ⟨b, t, h, .inl hb⟩
  | negSucc m =>
      refine ⟨45, utf8 (toString (m + 1)), ?_, .inr rfl⟩
      show utf8 ("-" ++ toString (m + 1)) = _
      rw [utf8_append]
      rfl

/-- No value's text starts with a blank, a closing bracket or brace, or a comma; only `null`
starts with an `n`. -/
theorem prettyAt_head (level : Nat) (j : Json) : ∃ b t, utf8 (Json.prettyAt level j) = b :: t ∧
    Text.isJsonBlank b = false ∧ b ≠ 93 ∧ b ≠ 125 ∧ b ≠ 44 ∧ (b = 110 → j = .null) := by
  -- an integer: its sign or first digit
  have ofInt : ∀ n : Int, ∃ b t, utf8 (toString n) = b :: t ∧
      Text.isJsonBlank b = false ∧ b ≠ 93 ∧ b ≠ 125 ∧ b ≠ 44 ∧ b ≠ 110 := fun n => by
    obtain ⟨b, t, h, hb⟩ := utf8_toString_int_head n
    refine ⟨b, t, h, ?_⟩
    rcases hb with hb | rfl
    · obtain ⟨h1, h2, h3, h4, h5, -⟩ := solid_of_isDigit hb
      exact ⟨h1, h2, h3, h4, h5⟩
    · decide
  cases j with
  | null => exact ⟨110, _, by rw [prettyAt_null]; rfl, by decide, by decide, by decide, by decide, fun _ => rfl⟩
  | bool b =>
      cases b
      · exact ⟨102, _, by rw [prettyAt_bool]; rfl, by decide, by decide, by decide, by decide,
          fun h => absurd h (by decide)⟩
      · exact ⟨116, _, by rw [prettyAt_bool]; rfl, by decide, by decide, by decide, by decide,
          fun h => absurd h (by decide)⟩
  | int n =>
      obtain ⟨b, t, h, h1, h2, h3, h4, h5⟩ := ofInt n
      exact ⟨b, t, by simp only [Json.prettyAt, Json.compact]; exact h, h1, h2, h3, h4, fun e => absurd e h5⟩
  | decimal m e =>
      obtain ⟨b, t, h, h1, h2, h3, h4, h5⟩ := ofInt m
      refine ⟨b, t ++ utf8 ("e" ++ toString e), ?_, h1, h2, h3, h4, fun e => absurd e h5⟩
      simp only [Json.prettyAt, Json.compact, Json.decimalText, utf8_append, h]
      simp
  | str s =>
      exact ⟨34, _, by rw [prettyAt_str, utf8_quote]; rfl, by decide, by decide, by decide, by decide,
        fun h => absurd h (by decide)⟩
  | arr items =>
      exact ⟨91, _, by rw [utf8_prettyAt_arr]; rfl, by decide, by decide, by decide, by decide,
        fun h => absurd h (by decide)⟩
  | obj ms =>
      exact ⟨123, _, by rw [utf8_prettyAt_obj]; rfl, by decide, by decide, by decide, by decide,
        fun h => absurd h (by decide)⟩

end Reader

end KernelLaunch
