import KernelLaunch.Proofs.Json.Strings
/-!
# Reading numbers

A natural number is written as its decimal digits. The reader accumulates them one by one,
checking at each digit that the value stays a 64-bit word; every prefix of a number's digits
is worth at most the number, so the check never fires below `Word.max` (`integer_go_digits`).
What follows a number in the texts read here (nothing, a comma, a line break) neither continues
it nor starts a fraction or an exponent, so the digits are read as an unsigned integer
(`integer_at`), and as a word or a 32-bit word when they fit (`reads_word`, `reads_word32`).
-/

namespace KernelLaunch

namespace Reader

/-! ## Digits as bytes -/

theorem toNat_of_isDigit {c : Char} (h : c.isDigit = true) : 48 ≤ c.toNat ∧ c.toNat ≤ 57 := by
  simp only [Char.isDigit, Bool.and_eq_true, decide_eq_true_eq, UInt32.le_iff_toNat_le] at h
  exact ⟨h.1, h.2⟩

/-- A decimal digit is one byte, its code. -/
theorem utf8EncodeChar_digit {c : Char} (h : c.isDigit = true) : String.utf8EncodeChar c = [UInt8.ofNat c.toNat] := by
  have := toNat_of_isDigit h
  simp only [String.utf8EncodeChar, Char.toNat] at this ⊢
  rw [if_pos (by omega)]

theorem isDigit_ofNat {c : Char} (h : c.isDigit = true) : isDigit (UInt8.ofNat c.toNat) = true := by
  have := toNat_of_isDigit h
  simp only [isDigit, Bool.and_eq_true, decide_eq_true_eq, UInt8.le_iff_toNat_le, UInt8.toNat_ofNat',
    UInt8.toNat_ofNat]
  omega

theorem length_flatMap_digits : ∀ (cs : List Char), (∀ c ∈ cs, c.isDigit = true) →
    (cs.flatMap String.utf8EncodeChar).length = cs.length
  | [], _ => rfl
  | c :: cs, hd => by
      rw [List.flatMap_cons, List.length_append, utf8EncodeChar_digit (hd c List.mem_cons_self),
        length_flatMap_digits cs (fun c' hc' => hd c' (List.mem_cons_of_mem _ hc'))]
      simp only [List.length_cons, List.length_nil]
      omega

/-- Only zero is written with a leading zero. -/
theorem head?_toDigits_ne_zero : ∀ n, 0 < n → (Nat.toDigits 10 n).head? ≠ some '0'
  | n, hpos => by
      by_cases hn : n < 10
      · rw [Nat.toDigits_of_lt_base hn]
        have : ∀ k < 10, 0 < k → k.digitChar ≠ '0' := by decide
        simpa using this n hn hpos
      · have ih := head?_toDigits_ne_zero (n / 10) (by omega)
        obtain ⟨c, cs, hcs⟩ := List.exists_cons_of_ne_nil (Nat.toDigits_ne_nil (n := n / 10) (b := 10))
        rw [Nat.toDigits_of_base_le (by decide) (by omega), hcs]
        rw [hcs] at ih
        simpa using ih

/-- Accumulating digits never decreases the value. -/
theorem le_ofDigitChars : ∀ (cs : List Char) (s : Nat), s ≤ Nat.ofDigitChars 10 cs s
  | [], _ => Nat.le_refl _
  | c :: cs, s => by
      have := le_ofDigitChars cs (10 * s + (c.toNat - '0'.toNat))
      simp only [Nat.ofDigitChars, List.foldl_cons] at this ⊢
      omega

theorem ofDigitChars_cons (c : Char) (cs : List Char) (s : Nat) :
    Nat.ofDigitChars 10 (c :: cs) s = Nat.ofDigitChars 10 cs (s * 10 + (c.toNat - 48)) := by
  simp only [Nat.ofDigitChars, List.foldl_cons]
  rw [show '0'.toNat = 48 from rfl, Nat.mul_comm]

/-! ## The end of a number -/

/-- What follows a number: nothing, a comma or a line break. -/
theorem peekOrNull_delimits {l post : List UInt8} {i depth : Nat} (h : l.drop i = post) (hpost : Delimits post) :
    ∃ b, peekOrNull (Cursor.at l i depth) = .ok b (Cursor.at l i depth) ∧
      (b = 0 ∨ b = 44 ∨ b = 10) := by
  refine ⟨_, peekOrNull_at, ?_⟩
  have hget : l[i]? = post.head? := by rw [← List.head?_drop, h]
  rcases hpost with hp | hp | hp <;> simp [hget, hp]

variable {l r post : List UInt8} {i depth : Nat}

/-- After the digits of an integer, the reader finds neither a fraction nor an exponent. -/
theorem numberTail_at (h : l.drop i = post) (hpost : Delimits post) (s : Nat) :
    numberTail true s (Cursor.at l i depth) = .ok (.unsigned s) (Cursor.at l i depth) := by
  obtain ⟨b, hb, hb'⟩ := @peekOrNull_delimits _ _ _ depth h hpost
  unfold numberTail
  rw [bind_ok hb]
  rcases hb' with rfl | rfl | rfl <;> rfl

/-- The digits after the first are read as the value they continue, when it stays a word. -/
theorem integer_go_digits : ∀ (cs : List Char) {fuel s i : Nat}, (∀ c ∈ cs, c.isDigit = true) → cs.length < fuel →
    Nat.ofDigitChars 10 cs s ≤ Word.max → l.drop i = cs.flatMap String.utf8EncodeChar ++ post → Delimits post →
    integer.go true fuel s (Cursor.at l i depth) =
      .ok (.unsigned (Nat.ofDigitChars 10 cs s)) (Cursor.at l (i + cs.length) depth)
  | [], fuel + 1, s, i, _, _, _, h, hpost => by
      obtain ⟨b, hb, hb'⟩ := @peekOrNull_delimits _ _ _ depth (by simpa using h) hpost
      rw [integer.go, bind_ok hb]
      have hnd : isDigit b = false := by rcases hb' with rfl | rfl | rfl <;> rfl
      rw [hnd]
      exact numberTail_at (by simpa using h) hpost s
  | c :: cs, fuel + 1, s, i, hd, hlen, hmax, h, hpost => by
      have hc := hd c List.mem_cons_self
      rw [List.flatMap_cons, utf8EncodeChar_digit hc, List.append_assoc] at h
      have hb : l[i]? = some (UInt8.ofNat c.toNat) := getElem?_of_drop h
      have hval : (UInt8.ofNat c.toNat).toNat - 48 = c.toNat - 48 := by
        have := toNat_of_isDigit hc
        rw [UInt8.toNat_ofNat', Nat.mod_eq_of_lt (by omega)]
      have hstep := le_ofDigitChars cs (s * 10 + (c.toNat - 48))
      rw [ofDigitChars_cons] at hmax
      rw [integer.go, bind_ok (peekOrNull_at), hb]
      simp only [Option.getD_some, isDigit_ofNat hc, if_true, hval]
      have hno : overflows s (c.toNat - 48) = false := by
        simp only [overflows, decide_eq_false_iff_not]
        omega
      rw [hno]
      simp only [Bool.false_eq_true, if_false]
      have h' : l.drop (i + 1) = cs.flatMap String.utf8EncodeChar ++ post := @drop_shift l [UInt8.ofNat c.toNat] _ i h
      rw [bind_ok eat_at]
      refine (integer_go_digits cs (fun c' hc' => hd c' (List.mem_cons_of_mem _ hc'))
        (by simp at hlen; omega) hmax h' hpost).trans ?_
      rw [ofDigitChars_cons]
      simp only [List.length_cons]
      congr 2
      omega

/-- The digits of a word are read as an unsigned integer. -/
theorem integer_at {n : Nat} (hn : n ≤ Word.max) (h : l.drop i = utf8 (toString n) ++ post) (hpost : Delimits post) :
    integer true (Cursor.at l i depth) = .ok (.unsigned n) (Cursor.at l (i + (utf8 (toString n)).length) depth) := by
  have hd : ∀ c ∈ Nat.toDigits 10 n, c.isDigit = true := fun c hc =>
    Nat.isDigit_of_mem_toDigits (by decide) (by decide) hc
  have hbytes : utf8 (toString n) = (Nat.toDigits 10 n).flatMap String.utf8EncodeChar := by
    simp [utf8, Nat.toString_eq_repr, Nat.toList_repr]
  unfold integer
  rcases Nat.eq_zero_or_pos n with rfl | hpos
  · -- zero, the one number with a leading zero: nothing but its end may follow
    have h0 : utf8 (toString 0) = [48] := by decide
    rw [h0] at h ⊢
    have h1 : l.drop (i + 1) = post := @drop_shift l [48] _ i h
    rw [bind_ok (next_at (getElem?_of_drop h))]
    obtain ⟨b, hb, hb'⟩ := @peekOrNull_delimits _ _ _ depth h1 hpost
    simp only
    rw [bind_ok hb]
    have hnd : isDigit b = false := by rcases hb' with rfl | rfl | rfl <;> rfl
    rw [hnd]
    exact numberTail_at h1 hpost 0
  · -- a first digit from one to nine, then the loop over the others
    have hvalue := Nat.ofDigitChars_ten_toDigits (n := n)
    have hne := head?_toDigits_ne_zero n hpos
    rw [hbytes, length_flatMap_digits _ hd]
    rw [hbytes] at h
    obtain ⟨c, cs, hcs⟩ := List.exists_cons_of_ne_nil (Nat.toDigits_ne_nil (n := n) (b := 10))
    rw [hcs] at h hd hvalue hne
    have hc := hd c List.mem_cons_self
    have hc48 : UInt8.ofNat c.toNat ≠ 48 := fun e => by
      have := congrArg UInt8.toNat e
      have hr := toNat_of_isDigit hc
      rw [UInt8.toNat_ofNat', Nat.mod_eq_of_lt (by omega)] at this
      have h48 : c.toNat = '0'.toNat := this
      rw [Char.toNat_inj.mp h48] at hne
      exact hne rfl
    rw [List.flatMap_cons, utf8EncodeChar_digit hc, List.append_assoc] at h
    have hrest : l.drop (i + 1) = cs.flatMap String.utf8EncodeChar ++ post :=
      @drop_shift l [UInt8.ofNat c.toNat] _ i h
    have hval : (UInt8.ofNat c.toNat).toNat - 48 = c.toNat - 48 := by
      have := toNat_of_isDigit hc
      rw [UInt8.toNat_ofNat', Nat.mod_eq_of_lt (by omega)]
    have hfuel : cs.length < l.length - (i + 1) + 2 := by
      have := congrArg List.length hrest
      rw [List.length_drop, List.length_append, length_flatMap_digits cs
        (fun c' hc' => hd c' (List.mem_cons_of_mem _ hc'))] at this
      omega
    rw [bind_ok (next_at (getElem?_of_drop h)), integer.match_1.eq_3 _ _ _ _ _ hc48, isDigit_ofNat hc,
      if_pos rfl, bind_ok budget_at, hval]
    have hmax : Nat.ofDigitChars 10 cs (0 * 10 + (c.toNat - 48)) ≤ Word.max := by
      rw [← ofDigitChars_cons, hvalue]; exact hn
    refine (integer_go_digits cs (fun c' hc' => hd c' (List.mem_cons_of_mem _ hc')) hfuel (by simpa using hmax)
      hrest hpost).trans ?_
    rw [show c.toNat - 48 = 0 * 10 + (c.toNat - 48) by omega, ← ofDigitChars_cons, hvalue, hcs, List.length_cons,
      Nat.add_assoc, Nat.add_comm 1]

/-! ## Words -/

/-- A digit is none of the bytes that separate, close or start other values. -/
theorem solid_of_isDigit {b : UInt8} (h : isDigit b = true) :
    Text.isJsonBlank b = false ∧ b ≠ 93 ∧ b ≠ 125 ∧ b ≠ 44 ∧ b ≠ 110 ∧ b ≠ 45 := by
  simp only [isDigit, Bool.and_eq_true, decide_eq_true_eq, UInt8.le_iff_toNat_le, UInt8.toNat_ofNat] at h
  simp only [Text.isJsonBlank, Bool.or_eq_false_iff, decide_eq_false_iff_not, ne_eq, ← UInt8.toNat_inj,
    UInt8.toNat_ofNat]
  omega

/-- A number starts with a digit. -/
theorem utf8_toString_head (n : Nat) : ∃ b rest, utf8 (toString n) = b :: rest ∧ isDigit b = true := by
  obtain ⟨c, cs, hcs⟩ := List.exists_cons_of_ne_nil (Nat.toDigits_ne_nil (n := n) (b := 10))
  have hmem : c ∈ Nat.toDigits 10 n := by rw [hcs]; exact List.mem_cons_self
  have hc : c.isDigit = true := Nat.isDigit_of_mem_toDigits (by decide) (by decide) hmem
  refine ⟨UInt8.ofNat c.toNat, cs.flatMap String.utf8EncodeChar, ?_, isDigit_ofNat hc⟩
  simp [utf8, Nat.toString_eq_repr, Nat.toList_repr, hcs, utf8EncodeChar_digit hc]

/-- A number whose digits the visitor accepts as `a` is read as `a`. -/
theorem reads_number {β : Type} {expected : String} {visit : Number → Except Problem β} {n : Nat} {a : β}
    (hn : n ≤ Word.max) (hv : visit (.unsigned n) = .ok a) :
    Reads (number expected visit) (utf8 (toString n)) a 0 := by
  intro l i depth ws post h hws hpost _
  obtain ⟨b, rest, hb, hdigit⟩ := utf8_toString_head n
  obtain ⟨hblank, -, -, -, -, h45⟩ := solid_of_isDigit hdigit
  have hstart : l.drop i = ws ++ b :: (rest ++ post) := by rw [h, hb]; simp
  have hnum : l.drop (i + ws.length) = utf8 (toString n) ++ post := by
    rw [drop_shift (by rw [h, List.append_assoc] : l.drop i = ws ++ (utf8 (toString n) ++ post))]
  unfold number
  apply fixed_ok
  rw [bind_ok (valueStart_at hstart hws hblank)]
  have h45' : (b == 45) = false := by simpa using h45
  simp only [h45', hdigit, Bool.false_eq_true, if_false, if_true]
  rw [bind_ok (integer_at hn hnum hpost), hv]
  rfl

/-- A 64-bit word is read from its digits. -/
theorem reads_word {n : Nat} (hn : n ≤ Word.max) : Reads word (utf8 (toString n)) n 0 :=
  reads_number hn rfl

/-- A 32-bit word is read from its digits. -/
theorem reads_word32 {n : Nat} (hn : n ≤ Word.max32) : Reads word32 (utf8 (toString n)) n 0 :=
  reads_number (Nat.le_trans hn (by decide)) (by simp [hn])

end Reader

end KernelLaunch
