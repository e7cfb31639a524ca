import KernelLaunch.Proofs.Json.Containers
/-!
# Reading records and variants

A record is read from an object member by member: each key is looked up among the record's
field names, and the field's reader reads the member's value into the state. `MembersRead`
follows that run over the members; when the state it ends in finishes to a value, the record's
decoder reads the object as that value (`readsJson_record`). A variant is either its bare name
(`readsJson_variant_bare`) or an object whose one key names it and whose value is its content
(`readsJson_variant_inline`).
-/

namespace KernelLaunch

namespace Reader

variable {σ α : Type}

/-- The members `ms`, read one after another from the state `s`, leave the state `s'`: each
key names a field not read yet, whose reader reads the member's value. -/
inductive MembersRead (r : Record σ α) : List (String × Json) → σ → σ → Prop where
  | nil (s : σ) : MembersRead r [] s s
  | cons {k : String} {v : Json} {ms : List (String × Json)} {s s₁ s' : σ} {n : Nat} :
      indexOf? r.names k = some n → r.isSet n s = false → ReadsJson (r.read n s) v s₁ →
      MembersRead r ms s₁ s' → MembersRead r ((k, v) :: ms) s s'

variable {l t post : List UInt8} {i depth : Nat}

/-! ## Keys -/

/-- A quoted key, read after its opening quote has been looked at. -/
theorem keyAt_at {k : String} (h : l.drop i = utf8 (Json.quote k) ++ t) :
    (do eat; pure (some (← stringBody)) : Decoder (Option String)) (Cursor.at l i depth) =
      .ok (some k) (Cursor.at l (i + (utf8 (Json.quote k)).length) depth) := by
  rw [utf8_quote] at h ⊢
  have hbody : l.drop (i + 1) = escapedBytes k.toList ++ 34 :: t := drop_succ (b := 34) (by rw [h]; simp)
  rw [bind_ok eat_at, bind_ok (stringBody_at hbody)]
  simp only [pure_at, List.length_cons, List.length_append, List.length_nil]
  congr 2
  omega

/-- The first key of an object: a gap, then the quoted key. -/
theorem nextKey_first {lvl : Nat} {k : String} (h : l.drop i = gap lvl ++ utf8 (Json.quote k) ++ t) :
    nextKey true (Cursor.at l i depth) =
      .ok (some k) (Cursor.at l (i + (gap lvl).length + (utf8 (Json.quote k)).length) depth) := by
  have hq : l.drop i = gap lvl ++ 34 :: (escapedBytes k.toList ++ [34] ++ t) := by rw [h, utf8_quote]; simp
  have hk : l.drop (i + (gap lvl).length) = utf8 (Json.quote k) ++ t := by
    rw [drop_shift (by rw [h, List.append_assoc] : l.drop i = gap lvl ++ (utf8 (Json.quote k) ++ t))]
  unfold nextKey
  rw [bind_ok (blanks_at hq (blank_gap lvl) (fun b' hb' => by cases hb'; rfl))]
  exact keyAt_at hk

/-- A further key: a comma, a gap, then the quoted key. -/
theorem nextKey_next {lvl : Nat} {k : String} (h : l.drop i = 44 :: gap lvl ++ utf8 (Json.quote k) ++ t) :
    nextKey false (Cursor.at l i depth) =
      .ok (some k) (Cursor.at l (i + 1 + (gap lvl).length + (utf8 (Json.quote k)).length) depth) := by
  have hc : l.drop i = [] ++ 44 :: (gap lvl ++ utf8 (Json.quote k) ++ t) := h
  have hnext : l.drop (i + 1) = gap lvl ++ (utf8 (Json.quote k) ++ t) := by
    simpa using drop_succ h
  have hrest : l.drop (i + 1) = gap lvl ++ 34 :: (escapedBytes k.toList ++ [34] ++ t) := by
    rw [hnext, utf8_quote]; simp
  have hk : l.drop (i + 1 + (gap lvl).length) = utf8 (Json.quote k) ++ t := drop_shift hnext
  unfold nextKey
  rw [bind_ok (blanks_at hc Blank.nil (fun b' hb' => by cases hb'; rfl))]
  simp only [List.head?_cons, List.length_nil, Nat.add_zero, Bool.false_eq_true, if_false]
  rw [bind_ok eat_at, bind_ok (blanks_at hrest (blank_gap lvl) (fun b' hb' => by cases hb'; rfl))]
  exact keyAt_at hk

/-- The end of the members: blanks and the closing brace. -/
theorem nextKey_end {g : List UInt8} (first : Bool) (h : l.drop i = g ++ 125 :: post) (hg : Blank g) :
    nextKey first (Cursor.at l i depth) = .ok none (Cursor.at l (i + g.length) depth) := by
  unfold nextKey
  rw [bind_ok (blanks_at h hg (fun b' hb' => by cases hb'; rfl))]
  rfl

theorem colon_at (h : l.drop i = 58 :: t) : colon (Cursor.at l i depth) = .ok () (Cursor.at l (i + 1) depth) := by
  have h' : l.drop i = [] ++ 58 :: t := h
  unfold colon
  rw [bind_ok (blanks_at h' Blank.nil (fun b' hb' => by cases hb'; rfl))]
  simp only [List.head?_cons, List.length_nil, Nat.add_zero]
  exact eat_at

theorem endObject_at {g : List UInt8} (h : l.drop i = g ++ 125 :: post) (hg : Blank g) :
    endObject (Cursor.at l i depth) = .ok () (Cursor.at l (i + g.length + 1) depth) := by
  unfold endObject
  rw [bind_ok (blanks_at h hg (fun b' hb' => by cases hb'; rfl))]
  exact eat_at

theorem length_moreMembers (lvl : Nat) : ∀ ms : List (String × Json), ms.length ≤ (moreMembers lvl ms).length
  | [] => Nat.le_refl _
  | m :: ms => by
      have := length_moreMembers lvl ms
      simp only [moreMembers, List.flatMap_cons, List.length_append, List.length_cons] at this ⊢
      omega

/-! ## Records -/

section Records

variable {r : Record σ α} {level : Nat}

/-- One member whose key names a field not read yet: after the key, a colon and a blank, the
field's reader reads the value, and the members go on from after it. -/
theorem recordMembers_go_member {first : Bool} {lvl fuel j n : Nat} {k : String} {v : Json} {s s₁ : σ}
    {rest : List UInt8} (hkey : nextKey first (Cursor.at l i depth) = .ok (some k) (Cursor.at l j depth))
    (hj : l.drop j = 58 :: 32 :: (utf8 (Json.prettyAt lvl v) ++ rest)) (hpost : Delimits rest)
    (hvd : v.depth < depth) (hn : indexOf? r.names k = some n) (hset : r.isSet n s = false)
    (hv : ReadsJson (r.read n s) v s₁) :
    recordMembers.go r (fuel + 1) first s (Cursor.at l i depth) =
      recordMembers.go r fuel false s₁ (Cursor.at l (j + 2 + (utf8 (Json.prettyAt lvl v)).length) depth) := by
  have hval : l.drop (j + 1) = [32] ++ utf8 (Json.prettyAt lvl v) ++ rest := drop_succ hj
  have hread := hv lvl l (j + 1) depth [32] rest hval (fun b hb => by simp at hb; subst hb; rfl) hpost hvd
  rw [recordMembers.go, bind_ok hkey]
  simp only [hn, hset, Bool.false_eq_true, if_false]
  rw [bind_ok (colon_at hj), bind_ok hread]
  rfl

/-- What follows a member's value: the members after it, or the closing gap and brace. -/
theorem delimits_moreMembers (lvl level : Nat) (ms : List (String × Json)) :
    Delimits (moreMembers lvl ms ++ gap level ++ 125 :: post) := by
  cases ms with
  | nil => exact .inr (.inr (by simp [moreMembers, gap_eq]))
  | cons _ _ => exact .inr (.inl (by simp [moreMembers]))

/-- The members after the first, each after a comma and a gap, until the closing brace. -/
theorem recordMembers_go_more {ms : List (String × Json)} {s s' : σ} (hms : MembersRead r ms s s') :
    ∀ {fuel i : Nat}, ms.length < fuel → Json.depthMembers ms < depth →
      l.drop i = moreMembers (level + 1) ms ++ gap level ++ 125 :: post →
      recordMembers.go r fuel false s (Cursor.at l i depth) =
        .ok s' (Cursor.at l (i + (moreMembers (level + 1) ms).length + (gap level).length) depth) := by
  induction hms with
  | nil s =>
      intro fuel i hlen _ h
      obtain ⟨fuel, rfl⟩ : ∃ f, fuel = f + 1 := ⟨fuel - 1, by simp at hlen; omega⟩
      rw [recordMembers.go, bind_ok (nextKey_end false (by simpa [moreMembers] using h) (blank_gap level))]
      simp [moreMembers]
      rfl
  | @cons k v ms s s₁ s' n hn hset hv _ ih =>
      intro fuel i hlen hdepth h
      obtain ⟨fuel, rfl⟩ : ∃ f, fuel = f + 1 := ⟨fuel - 1, by simp at hlen; omega⟩
      have hvd : v.depth < depth := by simp only [Json.depthMembers] at hdepth; omega
      have hmd : Json.depthMembers ms < depth := by simp only [Json.depthMembers] at hdepth; omega
      -- the comma, the gap and the key; then the colon, the blank and the value
      have hk : l.drop i = 44 :: gap (level + 1) ++ utf8 (Json.quote k) ++
          (58 :: 32 :: (utf8 (Json.prettyAt (level + 1) v) ++ (moreMembers (level + 1) ms ++ gap level ++ 125 :: post))) := by
        rw [h]; simp [moreMembers, memberBytes]
      have hcolon : l.drop (i + 1 + (gap (level + 1)).length + (utf8 (Json.quote k)).length) =
          58 :: 32 :: (utf8 (Json.prettyAt (level + 1) v) ++ (moreMembers (level + 1) ms ++ gap level ++ 125 :: post)) := by
        refine drop_shift_eq hk ?_
        simp only [List.length_append, List.length_cons]
        omega
      have hrest : l.drop (i + 1 + (gap (level + 1)).length + (utf8 (Json.quote k)).length + 2 +
          (utf8 (Json.prettyAt (level + 1) v)).length) = moreMembers (level + 1) ms ++ gap level ++ 125 :: post := by
        refine @drop_shift_eq l _ ([58, 32] ++ utf8 (Json.prettyAt (level + 1) v)) _ _ hcolon ?_
        simp only [List.length_append, List.length_cons, List.length_nil]
        omega
      rw [recordMembers_go_member (nextKey_next hk) hcolon (delimits_moreMembers _ level ms) hvd hn hset hv,
        ih (by simp at hlen; omega) hmd hrest]
      have hm : (moreMembers (level + 1) ((k, v) :: ms)).length = (gap (level + 1)).length +
          (utf8 (Json.quote k)).length + (utf8 (Json.prettyAt (level + 1) v)).length +
          (moreMembers (level + 1) ms).length + 3 := by
        simp only [moreMembers, memberBytes, List.flatMap_cons, List.length_append, List.length_cons,
          List.length_nil]
        omega
      exact congrArg (fun p => EStateM.Result.ok s' (Cursor.at l (p + (gap level).length) depth)) (by omega)

theorem length_membersBytes (lvl : Nat) : ∀ ms : List (String × Json), ms.length ≤ (membersBytes lvl ms).length
  | [] => Nat.le_refl _
  | m :: ms => by
      have := length_moreMembers (lvl + 1) ms
      simp only [membersBytes, memberBytes, List.length_append, List.length_cons] at this ⊢
      omega

/-- All the members of an object, from after its opening brace up to its closing brace. -/
theorem recordMembers_go_all {ms : List (String × Json)} {s s' : σ} (hms : MembersRead r ms s s') {fuel i : Nat}
    (hlen : ms.length < fuel) (hdepth : Json.depthMembers ms < depth)
    (h : l.drop i = membersBytes level ms ++ 125 :: post) :
    recordMembers.go r fuel true s (Cursor.at l i depth) =
      .ok s' (Cursor.at l (i + (membersBytes level ms).length) depth) := by
  obtain ⟨fuel, rfl⟩ : ∃ f, fuel = f + 1 := ⟨fuel - 1, by omega⟩
  cases hms with
  | nil s =>
      rw [recordMembers.go, bind_ok (nextKey_end (g := []) true (by simpa [membersBytes] using h) Blank.nil)]
      rfl
  | @cons k v ms s s₁ s' n hn hset hv hrest =>
      have hvd : v.depth < depth := by simp only [Json.depthMembers] at hdepth; omega
      have hmd : Json.depthMembers ms < depth := by simp only [Json.depthMembers] at hdepth; omega
      -- the gap and the key; then the colon, the blank and the value
      have hk : l.drop i = gap (level + 1) ++ utf8 (Json.quote k) ++
          (58 :: 32 :: (utf8 (Json.prettyAt (level + 1) v) ++ (moreMembers (level + 1) ms ++ gap level ++ 125 :: post))) := by
        rw [h]; simp [membersBytes, memberBytes]
      have hcolon : l.drop (i + (gap (level + 1)).length + (utf8 (Json.quote k)).length) =
          58 :: 32 :: (utf8 (Json.prettyAt (level + 1) v) ++ (moreMembers (level + 1) ms ++ gap level ++ 125 :: post)) := by
        refine drop_shift_eq hk ?_
        simp only [List.length_append]
        omega
      have hrest' : l.drop (i + (gap (level + 1)).length + (utf8 (Json.quote k)).length + 2 +
          (utf8 (Json.prettyAt (level + 1) v)).length) = moreMembers (level + 1) ms ++ gap level ++ 125 :: post := by
        refine @drop_shift_eq l _ ([58, 32] ++ utf8 (Json.prettyAt (level + 1) v)) _ _ hcolon ?_
        simp only [List.length_append, List.length_cons, List.length_nil]
        omega
      rw [recordMembers_go_member (nextKey_first hk) hcolon (delimits_moreMembers _ level ms) hvd hn hset hv,
        recordMembers_go_more hrest (by simp at hlen; omega) hmd hrest']
      have hm : (membersBytes level ((k, v) :: ms)).length = (gap (level + 1)).length +
          (utf8 (Json.quote k)).length + (utf8 (Json.prettyAt (level + 1) v)).length +
          (moreMembers (level + 1) ms).length + (gap level).length + 2 := by
        simp only [membersBytes, memberBytes, List.length_append, List.length_cons, List.length_nil]
        omega
      exact congrArg (fun p => EStateM.Result.ok s' (Cursor.at l p depth)) (by omega)

/-- An object whose members read the record's fields into a state that finishes as `a` is read
as `a`. -/
theorem readsJson_record {ms : List (String × Json)} {s : σ} {a : α} (hms : MembersRead r ms r.init s)
    (hfin : r.finish s = .ok a) : ReadsJson (record r) (.obj ms) a := by
  intro level l i depth ws post hl hws _ hd
  simp only [Json.depth] at hd
  rw [utf8_prettyAt_obj] at hl ⊢
  have hstart : l.drop i = ws ++ 123 :: (membersBytes level ms ++ 125 :: post) := by rw [hl]; simp
  have hmembers : l.drop (i + ws.length + 1) = membersBytes level ms ++ 125 :: post :=
    drop_succ (drop_shift hstart)
  have hclose : l.drop (i + ws.length + 1 + (membersBytes level ms).length) = [] ++ 125 :: post :=
    drop_shift hmembers
  have hfuel : ms.length < l.length - (i + ws.length + 1) + 2 := by
    have hlen := congrArg List.length hmembers
    have := length_membersBytes level ms
    simp only [List.length_drop, List.length_append, List.length_cons] at hlen
    omega
  have hread : recordMembers r (Cursor.at l (i + ws.length + 1) (depth - 1)) =
      .ok a (Cursor.at l (i + ws.length + 1 + (membersBytes level ms).length) (depth - 1)) := by
    unfold recordMembers
    rw [bind_ok budget_at, bind_ok (recordMembers_go_all hms hfuel (by omega) hmembers), hfin]
    rfl
  unfold record
  apply fixed_ok
  rw [bind_ok (valueStart_at hstart hws rfl), if_neg (by decide), if_pos (by decide)]
  apply nest_at (by omega)
  rw [bind_ok eat_at, closing_ok hread (endObject_at hclose Blank.nil)]
  simp only [List.length_cons, List.length_append, List.length_nil]
  exact congrArg (fun p => EStateM.Result.ok a (Cursor.at l p (depth - 1))) (by omega)

/-- A member printed only when present, then the members after it: an absent value leaves the
state as it is, a present one is read by the field's reader into the state `u s (some v)`. -/
theorem MembersRead.option {β : Type} {ms rest : List (String × Json)} {k : String} {n : Nat} {f : β → Json}
    {u : σ → Option β → σ} {s s' : σ} (x : Option β)
    (hms : ms = (match x with | some v => [(k, f v)] | none => []) ++ rest)
    (hnone : u s none = s) (hn : indexOf? r.names k = some n) (hset : r.isSet n s = false)
    (hread : ∀ v, x = some v → ReadsJson (r.read n s) (f v) (u s (some v)))
    (hrest : MembersRead r rest (u s x) s') : MembersRead r ms s s' := by
  subst hms
  cases x with
  | none => rw [hnone] at hrest; exact hrest
  | some v => exact .cons hn hset (hread v rfl) hrest

end Records

/-! ## Variants -/

/-- Counting the members ahead, as the variant reader does first, leaves the cursor where it was. -/
theorem countMembers_stays (c : Cursor) : ∃ n, countMembers c = .ok n c := by
  unfold countMembers
  simp only [bind, EStateM.bind, get, getThe, MonadStateOf.get, EStateM.get, attempt, set, MonadStateOf.set,
    EStateM.set, pure, EStateM.pure]
  split
  next => exact ⟨_, rfl⟩
  -- counting runs under an attempt, which never fails
  next heq => split at heq <;> cases heq

/-- A quoted name found among the variants' names gives its index. -/
theorem variantName_at {variants : List String} {tag : String} {n : Nat} {ws : List UInt8}
    (h : l.drop i = ws ++ utf8 (Json.quote tag) ++ t) (hws : Blank ws) (hn : indexOf? variants tag = some n) :
    variantName variants (Cursor.at l i depth) =
      .ok n (Cursor.at l (i + ws.length + (utf8 (Json.quote tag)).length) depth) := by
  have hd : l.drop i = ws ++ 34 :: (escapedBytes tag.toList ++ 34 :: t) := by rw [h, utf8_quote]; simp
  have hbody : l.drop (i + ws.length + 1) = escapedBytes tag.toList ++ 34 :: t := drop_succ (drop_shift hd)
  unfold variantName
  apply fixed_ok
  rw [bind_ok (valueStart_at hd hws rfl)]
  simp only [beq_self_eq_true, if_true]
  rw [bind_ok eat_at, bind_ok (stringBody_at hbody)]
  simp only [hn, pure_at, utf8_quote, List.length_cons, List.length_append, List.length_nil]
  exact congrArg (fun p => EStateM.Result.ok n (Cursor.at l p depth)) (by omega)

variable {variants : List String} {content : Nat → Access → Decoder α} {tag : String} {n : Nat}

/-- A variant with content: an object whose one key names the variant and whose value the
variant's content reads. -/
theorem readsJson_variant_inline {v : Json} {a : α} (hn : indexOf? variants tag = some n)
    (hc : ReadsJson (content n .inline) v a) : ReadsJson (variant variants content) (.obj [(tag, v)]) a := by
  intro level l i depth ws post hl hws _ hd
  simp only [Json.depth, Json.depthMembers] at hd
  rw [utf8_prettyAt_obj] at hl ⊢
  have hstart : l.drop i = ws ++ 123 :: (gap (level + 1) ++ utf8 (Json.quote tag) ++
      (58 :: 32 :: (utf8 (Json.prettyAt (level + 1) v) ++ (gap level ++ 125 :: post)))) := by
    rw [hl]; simp [membersBytes, memberBytes, moreMembers]
  have hkey := drop_succ (drop_shift hstart)
  have hcolon : l.drop (i + ws.length + 1 + (gap (level + 1)).length + (utf8 (Json.quote tag)).length) =
      58 :: 32 :: (utf8 (Json.prettyAt (level + 1) v) ++ (gap level ++ 125 :: post)) := by
    refine drop_shift_eq hkey ?_
    simp only [List.length_append]
    omega
  have hval : l.drop (i + ws.length + 1 + (gap (level + 1)).length + (utf8 (Json.quote tag)).length + 1) =
      [32] ++ utf8 (Json.prettyAt (level + 1) v) ++ (gap level ++ 125 :: post) := drop_succ hcolon
  have hread := hc (level + 1) l _ (depth - 1) [32] _ hval (fun b hb => by simp at hb; subst hb; rfl)
    (.inr (.inr (by simp [gap_eq]))) (by omega)
  have hclose : l.drop (i + ws.length + 1 + (gap (level + 1)).length + (utf8 (Json.quote tag)).length + 1 +
      ([32] : List UInt8).length + (utf8 (Json.prettyAt (level + 1) v)).length) = gap level ++ 125 :: post :=
    drop_shift_eq hval (by simp only [List.length_append]; omega)
  obtain ⟨m, hm⟩ := countMembers_stays (Cursor.at l (i + ws.length) depth)
  unfold variant
  rw [bind_ok get_at, bind_ok (blanks_at hstart hws (fun b hb => by cases hb; rfl))]
  simp only [List.head?_cons]
  rw [bind_ok hm]
  simp only [parsed_at, Bool.false_and, Bool.false_eq_true, if_false]
  apply nest_at (by omega)
  rw [bind_ok eat_at, bind_ok (variantName_at hkey (blank_gap _) hn), bind_ok (colon_at hcolon), bind_ok hread,
    bind_ok (blanks_at hclose (blank_gap level) (fun b hb => by cases hb; rfl))]
  simp only [List.head?_cons]
  rw [bind_ok eat_at]
  simp only [pure_at, List.length_cons, List.length_append, List.length_nil, membersBytes, memberBytes,
    moreMembers, List.flatMap_nil]
  exact congrArg (fun p => EStateM.Result.ok a (Cursor.at l p (depth - 1))) (by omega)

/-- A variant without content: its quoted name. -/
theorem readsJson_variant_bare {a : α} (hn : indexOf? variants tag = some n)
    (hc : ∀ c, content n .bare c = .ok a c) : ReadsJson (variant variants content) (.str tag) a := by
  intro level l i depth ws post hl hws _ _
  rw [prettyAt_str] at hl ⊢
  have hstart : l.drop i = ws ++ 34 :: (escapedBytes tag.toList ++ 34 :: post) := by
    rw [hl, utf8_quote]; simp
  unfold variant
  rw [bind_ok get_at, bind_ok (blanks_at hstart hws (fun b hb => by cases hb; rfl))]
  simp only [List.head?_cons]
  have hname : l.drop (i + ws.length) = [] ++ utf8 (Json.quote tag) ++ post := by
    rw [List.nil_append]
    exact drop_shift (by rw [hl, List.append_assoc])
  rw [bind_ok (variantName_at hname Blank.nil hn), hc]
  rfl

/-- Outside a document already parsed, a tuple variant's content is its array. -/
theorem readsJson_tupleVariant {expecting : String} {visit : Decoder α} {j : Json} {a : α}
    (h : ReadsJson (arrayWith expecting visit) j a) : ReadsJson (tupleVariant expecting visit .inline) j a := by
  intro level l i depth ws post hl hws hpost hd
  rw [tupleVariant]
  rw [bind_ok get_at, parsed_at]
  simp only [Bool.false_eq_true, if_false]
  exact h level l i depth ws post hl hws hpost hd

/-- Outside a document already parsed, a struct variant's content is its record. -/
theorem readsJson_recordVariant {r : Record σ α} {j : Json} {a : α}
    (h : ReadsJson (record r) j a) : ReadsJson (recordVariant r .inline) j a := by
  intro level l i depth ws post hl hws hpost hd
  rw [recordVariant]
  rw [bind_ok get_at, parsed_at]
  simp only [Bool.false_eq_true, if_false]
  exact h level l i depth ws post hl hws hpost hd

end Reader

end KernelLaunch
