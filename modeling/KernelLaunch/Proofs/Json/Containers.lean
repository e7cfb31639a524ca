import KernelLaunch.Proofs.Json.Pretty
/-!
# Reading values and arrays

`ReadsJson d j a` says that the decoder `d` reads the pretty text of `j`, printed at any level,
as `a`, within the nesting of `j`. The atoms are read by the decoders of strings, words and
booleans, `null` by `optional` as nothing. An array is entered under one level of nesting and
its items are read one after another (`readsItems_elements`) until only blanks stand before the
closing bracket (`reads_arrayWith`), so a list of values each read by `d` is read by `list d`
(`readsJson_list`), three of them by `triple d` (`readsJson_triple`).
-/

namespace KernelLaunch

namespace Reader

variable {α β : Type}

/-- The decoder reads the pretty text of `j`, at any level, as `a`, within `j`'s nesting. -/
def ReadsJson (d : Decoder α) (j : Json) (a : α) : Prop :=
  ∀ level, Reads d (utf8 (Json.prettyAt level j)) a j.depth

/-! ## Atoms -/

theorem ReadsJson.map {d : Decoder α} {j : Json} {a : α} (h : ReadsJson d j a) (f : α → β) :
    ReadsJson (f <$> d) j (f a) :=
  fun level l i depth ws post hl hws hpost hd => map_ok (h level l i depth ws post hl hws hpost hd)

theorem ReadsJson.bind_pure {d : Decoder α} {j : Json} {a : α} (h : ReadsJson d j a) (f : α → β) :
    ReadsJson (d >>= fun x => pure (f x)) j (f a) :=
  fun level l i depth ws post hl hws hpost hd => bind_ok (h level l i depth ws post hl hws hpost hd)

theorem readsJson_string (s : String) : ReadsJson string (.str s) s := by
  intro level
  rw [prettyAt_str]
  exact reads_string s

theorem readsJson_word {n : Nat} (hn : n ≤ Word.max) : ReadsJson word (Json.nat n) n := by
  intro level
  rw [prettyAt_nat]
  exact reads_word hn

theorem readsJson_word32 {n : Nat} (hn : n ≤ Word.max32) : ReadsJson word32 (Json.nat n) n := by
  intro level
  rw [prettyAt_nat]
  exact reads_word32 hn

theorem readsJson_bool (b : Bool) : ReadsJson bool (.bool b) b := by
  intro level l i depth ws post hl hws _ _
  rw [prettyAt_bool] at hl ⊢
  unfold bool
  apply fixed_ok
  cases b
  · have hw : utf8 "false" = [102, 97, 108, 115, 101] := by decide
    simp only [Bool.false_eq_true, if_false, hw] at hl ⊢
    have hstart : l.drop i = ws ++ 102 :: ([97, 108, 115, 101] ++ post) := by rw [hl]; simp
    have hrest : l.drop (i + ws.length + 1) = [97, 108, 115, 101] ++ post := @drop_shift l [102] _ _ (drop_shift hstart)
    rw [bind_ok (valueStart_at hstart hws rfl), if_neg (by decide), if_pos (by decide), bind_ok eat_at,
      bind_ok (ident_at hrest)]
    rfl
  · have hw : utf8 "true" = [116, 114, 117, 101] := by decide
    simp only [if_true, hw] at hl ⊢
    have hstart : l.drop i = ws ++ 116 :: ([114, 117, 101] ++ post) := by rw [hl]; simp
    have hrest : l.drop (i + ws.length + 1) = [114, 117, 101] ++ post := @drop_shift l [116] _ _ (drop_shift hstart)
    rw [bind_ok (valueStart_at hstart hws rfl), if_pos (by decide), bind_ok eat_at, bind_ok (ident_at hrest)]
    rfl

/-- `null` is read as nothing. -/
theorem readsJson_optional_none (d : Decoder α) : ReadsJson (optional d) .null none := by
  intro level l i depth ws post hl hws _ _
  rw [prettyAt_null, show utf8 "null" = [110, 117, 108, 108] by decide] at hl ⊢
  have hstart : l.drop i = ws ++ 110 :: ([117, 108, 108] ++ post) := by rw [hl]; simp
  unfold optional
  have hrest : l.drop (i + ws.length + 1) = [117, 108, 108] ++ post := @drop_shift l [110] _ _ (drop_shift hstart)
  rw [bind_ok (blanks_at hstart hws (fun b hb => by cases hb; rfl))]
  simp only [List.head?_cons]
  rw [bind_ok eat_at, bind_ok (ident_at hrest)]
  simp only [pure_at, List.length_cons, List.length_nil]

/-- A value other than `null` is read by the decoder it is given to. -/
theorem ReadsJson.optional {d : Decoder α} {j : Json} {a : α} (h : ReadsJson d j a) (hj : j ≠ .null) :
    ReadsJson (optional d) j (some a) := by
  intro level l i depth ws post hl hws hpost hd
  obtain ⟨b, t, ht, hblank, -, -, -, h110⟩ := prettyAt_head level j
  have hstart : l.drop i = ws ++ (b :: t ++ post) := by rw [hl, ht, List.append_assoc]
  have hval : l.drop (i + ws.length) = utf8 (Json.prettyAt level j) ++ post := by
    rw [drop_shift hstart, ht]
  unfold Reader.optional
  rw [bind_ok (blanks_at hstart hws (fun b' hb' => by cases hb'; exact hblank))]
  simp only [List.cons_append, List.head?_cons]
  rw [optional.match_1.eq_2 _ _ _ _ (fun e => hj (h110 (Option.some.inj e))), map_ok ((h level).start hval hpost hd)]

/-! ## Nesting -/

theorem parsed_at {l : List UInt8} {i depth : Nat} : (Cursor.at l i depth).parsed = false := rfl

/-- A container is read one level deeper, and the level is given back after it. -/
theorem nest_at {body : Decoder α} {l : List UInt8} {i j depth : Nat} {a : α} (hd : 1 < depth)
    (hb : body (Cursor.at l i (depth - 1)) = .ok a (Cursor.at l j (depth - 1))) :
    nest body (Cursor.at l i depth) = .ok a (Cursor.at l j depth) := by
  unfold nest
  simp only [Cursor.at, get, getThe, MonadStateOf.get, EStateM.get, bind, EStateM.bind, Bool.false_eq_true,
    if_false, Nat.not_le.mpr hd, set, MonadStateOf.set, EStateM.set]
  simp only [Cursor.at] at hb
  rw [hb]
  simp only [modify, modifyGet, MonadStateOf.modifyGet, EStateM.modifyGet, pure, EStateM.pure]
  congr 2
  omega

/-! ## Arrays -/

/-- `visit` reads the items `js` as `a`: started right after the opening bracket of the array
printed at any level, it gives `a` and stops where only blanks stand before the closing
bracket. -/
def ReadsItems (visit : Decoder α) (js : List Json) (a : α) (need : Nat) : Prop :=
  ∀ (level : Nat) (l : List UInt8) (i depth : Nat) (post : List UInt8), l.drop i = itemsBytes level js ++ 93 :: post →
    need < depth → ∃ j g, Blank g ∧ l.drop j = g ++ 93 :: post ∧ visit (Cursor.at l i depth) = .ok a (Cursor.at l j depth)

variable {l t post : List UInt8} {i depth : Nat}

/-- The first item: after its gap stands a value. -/
theorem hasElement_first {lvl : Nat} {b : UInt8} (h : l.drop i = gap lvl ++ b :: t) (hb : Text.isJsonBlank b = false)
    (h93 : b ≠ 93) : hasElement true (Cursor.at l i depth) = .ok true (Cursor.at l (i + (gap lvl).length) depth) := by
  unfold hasElement
  rw [bind_ok (blanks_at h (blank_gap lvl) (fun b' hb' => by cases hb'; exact hb))]
  simp only [List.head?_cons, if_true]
  rfl

/-- A further item: a comma, a gap, and a value. -/
theorem hasElement_next {lvl : Nat} {b : UInt8} (h : l.drop i = 44 :: gap lvl ++ b :: t)
    (hb : Text.isJsonBlank b = false) (h93 : b ≠ 93) :
    hasElement false (Cursor.at l i depth) = .ok true (Cursor.at l (i + 1 + (gap lvl).length) depth) := by
  have hc : l.drop i = [] ++ 44 :: (gap lvl ++ b :: t) := h
  have hrest : l.drop (i + 1) = gap lvl ++ b :: t := @drop_shift l [44] _ i h
  unfold hasElement
  rw [bind_ok (blanks_at hc Blank.nil (fun b' hb' => by cases hb'; rfl))]
  simp only [List.head?_cons, List.length_nil, Nat.add_zero]
  rw [hasElement.match_3.eq_3 _ _ _ _ _ (by decide)]
  simp only [Bool.false_eq_true, if_false, beq_self_eq_true, if_true]
  rw [bind_ok eat_at, bind_ok (blanks_at hrest (blank_gap lvl) (fun b' hb' => by cases hb'; exact hb))]
  simp only [List.head?_cons]
  rfl

/-- The end of the items: blanks and the closing bracket. -/
theorem hasElement_end {g : List UInt8} (first : Bool) (h : l.drop i = g ++ 93 :: post) (hg : Blank g) :
    hasElement first (Cursor.at l i depth) = .ok false (Cursor.at l (i + g.length) depth) := by
  unfold hasElement
  rw [bind_ok (blanks_at h hg (fun b' hb' => by cases hb'; rfl))]
  rfl

theorem length_moreItems (lvl : Nat) : ∀ js : List Json, js.length ≤ (moreItems lvl js).length
  | [] => Nat.le_refl _
  | j :: js => by
      have := length_moreItems lvl js
      simp only [moreItems, List.flatMap_cons, List.length_append, List.length_cons] at this ⊢
      omega

section Elements

variable {d : Decoder β} {f : β → Json} {need level : Nat}

/-- The items after the first, each after a comma and a gap, until the closing bracket. -/
theorem elements_go_more (hneed : need < depth) :
    ∀ (xs : List β) {fuel i : Nat} {acc : Array β}, (∀ x ∈ xs, Reads d (utf8 (Json.prettyAt (level + 1) (f x))) x need) →
      xs.length < fuel → l.drop i = moreItems (level + 1) (xs.map f) ++ gap level ++ 93 :: post →
      elements.go d fuel false acc (Cursor.at l i depth) =
        .ok (acc.toList ++ xs) (Cursor.at l (i + (moreItems (level + 1) (xs.map f)).length + (gap level).length) depth)
  | [], fuel + 1, i, acc, _, _, h => by
      rw [elements.go, bind_ok (hasElement_end false (by simpa [moreItems] using h) (blank_gap level))]
      simp [moreItems]
      rfl
  | x :: xs, fuel + 1, i, acc, hd, hlen, h => by
      obtain ⟨b, t, ht, hblank, h93, -, -, -⟩ := prettyAt_head (level + 1) (f x)
      have hx : l.drop i = 44 :: gap (level + 1) ++ b :: (t ++ moreItems (level + 1) (xs.map f) ++ gap level ++
          93 :: post) := by
        rw [h]; simp [moreItems, ht]
      have hval : l.drop (i + 1 + (gap (level + 1)).length) =
          utf8 (Json.prettyAt (level + 1) (f x)) ++ (moreItems (level + 1) (xs.map f) ++ gap level ++ 93 :: post) := by
        have := @drop_shift l (44 :: gap (level + 1)) _ i (by rw [hx])
        rw [List.length_cons, Nat.add_comm _ 1, ← Nat.add_assoc] at this
        rw [this, ht]
        simp
      have hpost : Delimits (moreItems (level + 1) (xs.map f) ++ gap level ++ 93 :: post) := by
        cases xs with
        | nil => exact .inr (.inr (by simp [moreItems, gap_eq]))
        | cons _ _ => exact .inr (.inl (by simp [moreItems]))
      have hrest : l.drop (i + 1 + (gap (level + 1)).length + (utf8 (Json.prettyAt (level + 1) (f x))).length) =
          moreItems (level + 1) (xs.map f) ++ gap level ++ 93 :: post := drop_shift hval
      rw [elements.go, bind_ok (hasElement_next hx hblank h93)]
      simp only [if_true]
      rw [bind_ok ((hd x List.mem_cons_self).start hval hpost hneed),
        elements_go_more hneed xs (fun y hy => hd y (List.mem_cons_of_mem _ hy)) (by simp at hlen; omega) hrest]
      simp only [Array.toList_push, List.append_assoc, List.singleton_append, List.map_cons, moreItems,
        List.flatMap_cons, List.length_append, List.length_cons]
      congr 2
      omega

/-- A list of values, each read by `d`, is read item by item. -/
theorem readsItems_elements {xs : List β} (hd : ∀ x ∈ xs, ReadsJson d (f x) x) :
    ReadsItems (elements d) (xs.map f) xs (Json.depthItems (xs.map f)) := by
  intro level l i depth post h hneed
  unfold elements
  rw [bind_ok budget_at]
  cases xs with
  | nil =>
      refine ⟨i, [], Blank.nil, by simpa [itemsBytes] using h, ?_⟩
      rw [elements.go, bind_ok (hasElement_end true (g := []) (by simpa [itemsBytes] using h) Blank.nil)]
      rfl
  | cons x xs =>
      -- every item is read within the array's nesting
      have hall : ∀ y ∈ x :: xs, Reads d (utf8 (Json.prettyAt (level + 1) (f y))) y (Json.depthItems ((x :: xs).map f)) :=
        fun y hy => (hd y hy (level + 1)).mono (Json.depth_le_depthItems (List.mem_map_of_mem hy))
      obtain ⟨b, t, ht, hblank, h93, -, -, -⟩ := prettyAt_head (level + 1) (f x)
      have hx : l.drop i = gap (level + 1) ++ b :: (t ++ moreItems (level + 1) (xs.map f) ++ gap level ++ 93 :: post) := by
        rw [h]; simp [itemsBytes, ht]
      have hval : l.drop (i + (gap (level + 1)).length) =
          utf8 (Json.prettyAt (level + 1) (f x)) ++ (moreItems (level + 1) (xs.map f) ++ gap level ++ 93 :: post) := by
        rw [drop_shift hx, ht]; simp
      have hpost : Delimits (moreItems (level + 1) (xs.map f) ++ gap level ++ 93 :: post) := by
        cases xs with
        | nil => exact .inr (.inr (by simp [moreItems, gap_eq]))
        | cons _ _ => exact .inr (.inl (by simp [moreItems]))
      have hrest : l.drop (i + (gap (level + 1)).length + (utf8 (Json.prettyAt (level + 1) (f x))).length) =
          moreItems (level + 1) (xs.map f) ++ gap level ++ 93 :: post := drop_shift hval
      have hend : l.drop (i + (gap (level + 1)).length + (utf8 (Json.prettyAt (level + 1) (f x))).length +
          (moreItems (level + 1) (xs.map f)).length + (gap level).length) = [] ++ 93 :: post := by
        have := @drop_shift l (moreItems (level + 1) (xs.map f) ++ gap level) _ _ (by rw [hrest, List.append_assoc])
        rw [List.length_append, ← Nat.add_assoc] at this
        exact this
      -- the budget covers the items: each takes at least one byte
      have hlen := congrArg List.length h
      have hmore := length_moreItems (level + 1) (xs.map f)
      have hgap := congrArg List.length (gap_eq level)
      simp only [List.map_cons, itemsBytes, List.length_drop, List.length_append, List.length_cons,
        List.length_map] at hlen hmore hgap
      refine ⟨_, [], Blank.nil, hend, ?_⟩
      rw [show l.length - i + 2 = (l.length - i + 1) + 1 by omega, elements.go,
        bind_ok (hasElement_first hx hblank h93)]
      simp only [if_true]
      rw [bind_ok ((hall x List.mem_cons_self).start hval hpost hneed),
        elements_go_more hneed xs (fun y hy => hall y (List.mem_cons_of_mem _ hy)) (by omega) hrest]
      rfl

/-- Exactly as many further items as are asked for, each after a comma and a gap. -/
theorem exactly_go_more {expected : String} (hneed : need < depth) :
    ∀ (xs : List β) {k i : Nat} {acc : Array β}, (∀ x ∈ xs, Reads d (utf8 (Json.prettyAt (level + 1) (f x))) x need) →
      l.drop i = moreItems (level + 1) (xs.map f) ++ gap level ++ 93 :: post →
      exactly.go expected d k xs.length false acc (Cursor.at l i depth) =
        .ok (acc.toList ++ xs) (Cursor.at l (i + (moreItems (level + 1) (xs.map f)).length) depth)
  | [], k, i, acc, _, _ => by
      show exactly.go expected d k 0 false acc _ = _
      rw [exactly.go]
      simp [moreItems]
      rfl
  | x :: xs, k, i, acc, hd, h => by
      obtain ⟨b, t, ht, hblank, h93, -, -, -⟩ := prettyAt_head (level + 1) (f x)
      have hx : l.drop i = 44 :: gap (level + 1) ++ b :: (t ++ moreItems (level + 1) (xs.map f) ++ gap level ++
          93 :: post) := by
        rw [h]; simp [moreItems, ht]
      have hval : l.drop (i + 1 + (gap (level + 1)).length) =
          utf8 (Json.prettyAt (level + 1) (f x)) ++ (moreItems (level + 1) (xs.map f) ++ gap level ++ 93 :: post) := by
        have := @drop_shift l (44 :: gap (level + 1)) _ i (by rw [hx])
        rw [List.length_cons, Nat.add_comm _ 1, ← Nat.add_assoc] at this
        rw [this, ht]
        simp
      have hpost : Delimits (moreItems (level + 1) (xs.map f) ++ gap level ++ 93 :: post) := by
        cases xs with
        | nil => exact .inr (.inr (by simp [moreItems, gap_eq]))
        | cons _ _ => exact .inr (.inl (by simp [moreItems]))
      have hrest : l.drop (i + 1 + (gap (level + 1)).length + (utf8 (Json.prettyAt (level + 1) (f x))).length) =
          moreItems (level + 1) (xs.map f) ++ gap level ++ 93 :: post := drop_shift hval
      rw [List.length_cons, exactly.go, bind_ok (hasElement_next hx hblank h93)]
      simp only [if_true]
      rw [bind_ok ((hd x List.mem_cons_self).start hval hpost hneed),
        exactly_go_more hneed xs (fun y hy => hd y (List.mem_cons_of_mem _ hy)) hrest]
      simp only [Array.toList_push, List.append_assoc, List.singleton_append, List.map_cons, moreItems,
        List.flatMap_cons, List.length_append, List.length_cons]
      congr 2
      omega

end Elements

/-- The end of an array: blanks and the closing bracket. -/
theorem endArray_at {g : List UInt8} {j : Nat} (total : Nat) (h : l.drop j = g ++ 93 :: post) (hg : Blank g) :
    endArray total (Cursor.at l j depth) = .ok () (Cursor.at l (j + g.length + 1) depth) := by
  unfold endArray
  rw [bind_ok get_at, parsed_at]
  simp only [Bool.false_eq_true, if_false]
  rw [bind_ok (blanks_at h hg (fun b' hb' => by cases hb'; rfl))]
  simp only [List.head?_cons]
  rw [eat_at]

/-- An array is entered one level deeper, its items read by `visit`, and closed. -/
theorem reads_arrayWith {visit : Decoder α} {js : List Json} {a : α} {need : Nat} (h : ReadsItems visit js a need)
    (expected : String) (level : Nat) :
    Reads (arrayWith expected visit) (utf8 (Json.prettyAt level (.arr js))) a (need + 1) := by
  intro l i depth ws post hl hws _ hd
  rw [utf8_prettyAt_arr] at hl ⊢
  have hstart : l.drop i = ws ++ 91 :: (itemsBytes level js ++ 93 :: post) := by rw [hl]; simp
  have hitems : l.drop (i + ws.length + 1) = itemsBytes level js ++ 93 :: post :=
    @drop_shift l [91] _ _ (drop_shift hstart)
  obtain ⟨j, g, hg, hj, hv⟩ := h level l (i + ws.length + 1) (depth - 1) post hitems (by omega)
  have hlen := congrArg List.length hj
  have hlen' := congrArg List.length hitems
  simp only [List.length_drop, List.length_append, List.length_cons] at hlen hlen'
  unfold arrayWith
  apply fixed_ok
  rw [bind_ok (valueStart_at hstart hws rfl), if_neg (by decide)]
  apply nest_at (by omega)
  rw [bind_ok get_at, parsed_at]
  simp only [Bool.false_eq_true, if_false]
  rw [bind_ok (pure_at _ _), bind_ok eat_at, closing_ok hv (endArray_at 0 hj hg)]
  simp only [List.length_cons, List.length_append, List.length_nil]
  congr 2
  omega

/-- A list of values, each read by `d`, is read by `list d`. -/
theorem readsJson_list {d : Decoder β} {f : β → Json} {xs : List β} (hd : ∀ x ∈ xs, ReadsJson d (f x) x) :
    ReadsJson (list d) (.arr (xs.map f)) xs :=
  fun level => reads_arrayWith (readsItems_elements hd) "a sequence" level

/-- Three values, each read by `d`, are read by `triple d`. -/
theorem readsJson_triple {d : Decoder β} {f : β → Json} {a b c : β} (hd : ∀ x ∈ [a, b, c], ReadsJson d (f x) x) :
    ReadsJson (triple d) (.arr ([a, b, c].map f)) (a, b, c) := by
  intro level
  apply reads_arrayWith _ "an array of length 3" level
  intro level l i depth post h hneed
  have hall : ∀ y ∈ [a, b, c], Reads d (utf8 (Json.prettyAt (level + 1) (f y))) y (Json.depthItems ([a, b, c].map f)) :=
    fun y hy => (hd y hy (level + 1)).mono (Json.depth_le_depthItems (List.mem_map_of_mem hy))
  obtain ⟨b0, t, ht, hblank, h93, -, -, -⟩ := prettyAt_head (level + 1) (f a)
  have hx : l.drop i = gap (level + 1) ++ b0 :: (t ++ moreItems (level + 1) ([b, c].map f) ++ gap level ++ 93 :: post) := by
    rw [h]; simp [itemsBytes, ht]
  have hval : l.drop (i + (gap (level + 1)).length) =
      utf8 (Json.prettyAt (level + 1) (f a)) ++ (moreItems (level + 1) ([b, c].map f) ++ gap level ++ 93 :: post) := by
    rw [drop_shift hx, ht]; simp
  have hrest : l.drop (i + (gap (level + 1)).length + (utf8 (Json.prettyAt (level + 1) (f a))).length) =
      moreItems (level + 1) ([b, c].map f) ++ gap level ++ 93 :: post := drop_shift hval
  have hend := drop_shift (by rw [hrest, List.append_assoc] :
    l.drop _ = moreItems (level + 1) ([b, c].map f) ++ (gap level ++ 93 :: post))
  refine ⟨_, gap level, blank_gap level, hend, ?_⟩
  simp only [exactly]
  rw [bind_ok (show exactly.go "an array of length 3" d 0 3 true #[] (Cursor.at l i depth) = _ from by
    rw [exactly.go, bind_ok (hasElement_first hx hblank h93)]
    simp only [if_true]
    rw [bind_ok ((hall a (by simp)).start hval (.inr (.inl (by simp [moreItems]))) hneed)]
    exact exactly_go_more hneed [b, c] (fun y hy => hall y (List.mem_cons_of_mem _ hy)) hrest)]
  rfl

/-- Two items, each read by its own decoder, as the fields of a tuple variant are. -/
theorem readsItems_pair {γ : Type} {d₁ : Decoder β} {d₂ : Decoder γ} {f : β → γ → α} {e₁ e₂ : Decoder α}
    {j₁ j₂ : Json} {a₁ : β} {a₂ : γ} (h₁ : ReadsJson d₁ j₁ a₁) (h₂ : ReadsJson d₂ j₂ a₂) :
    ReadsItems (do
      if ← hasElement true then
        let x ← d₁
        if ← hasElement false then
          let y ← d₂
          pure (f x y)
        else e₁
      else e₂) [j₁, j₂] (f a₁ a₂) (Json.depthItems [j₁, j₂]) := by
  intro level l i depth post h hneed
  have hd₁ : j₁.depth < depth := Nat.lt_of_le_of_lt (Json.depth_le_depthItems (by simp)) hneed
  have hd₂ : j₂.depth < depth := Nat.lt_of_le_of_lt (Json.depth_le_depthItems (by simp)) hneed
  obtain ⟨b₁, t₁, ht₁, hb₁, h93₁, -, -, -⟩ := prettyAt_head (level + 1) j₁
  obtain ⟨b₂, t₂, ht₂, hb₂, h93₂, -, -, -⟩ := prettyAt_head (level + 1) j₂
  -- the first item after its gap, the second after a comma and a gap, then the closing gap
  have hx : l.drop i = gap (level + 1) ++ b₁ :: (t₁ ++ 44 :: (gap (level + 1) ++
      utf8 (Json.prettyAt (level + 1) j₂) ++ gap level ++ 93 :: post)) := by
    rw [h]; simp [itemsBytes, moreItems, ht₁]
  have hval₁ : l.drop (i + (gap (level + 1)).length) = utf8 (Json.prettyAt (level + 1) j₁) ++
      44 :: (gap (level + 1) ++ utf8 (Json.prettyAt (level + 1) j₂) ++ gap level ++ 93 :: post) := by
    rw [drop_shift hx, ht₁]; simp
  have hcomma : l.drop (i + (gap (level + 1)).length + (utf8 (Json.prettyAt (level + 1) j₁)).length) =
      44 :: gap (level + 1) ++ b₂ :: (t₂ ++ gap level ++ 93 :: post) := by
    rw [drop_shift hval₁, ht₂]; simp
  have hval₂ : l.drop (i + (gap (level + 1)).length + (utf8 (Json.prettyAt (level + 1) j₁)).length + 1 +
      (gap (level + 1)).length) = utf8 (Json.prettyAt (level + 1) j₂) ++ (gap level ++ 93 :: post) := by
    refine drop_shift_eq (by rw [hcomma, ht₂]; simp : l.drop _ = 44 :: gap (level + 1) ++ _) ?_
    simp only [List.length_cons]
    omega
  refine ⟨_, gap level, blank_gap level, drop_shift hval₂, ?_⟩
  rw [bind_ok (hasElement_first hx hb₁ h93₁)]
  simp only [if_true]
  rw [bind_ok ((h₁ (level + 1)).start hval₁ (.inr (.inl rfl)) hd₁), bind_ok (hasElement_next hcomma hb₂ h93₂)]
  simp only [if_true]
  rw [bind_ok ((h₂ (level + 1)).start hval₂ (.inr (.inr (by simp [gap_eq]))) hd₂)]
  rfl

end Reader

end KernelLaunch
