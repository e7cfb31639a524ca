import KernelLaunch.Proofs.Json.Cursor
/-!
# Reading string literals

A string literal is written with every character escaped by `Json.escapeChar`: the quote, the
backslash and the control characters by a backslash escape, every other character by its
UTF-8 bytes. The reader undoes each escape (`stringBody_go_char`), so it reads a quoted string
back as the same string, whatever follows it (`stringBody_at`, `reads_string`). The three words
`null`, `true` and `false` are read letter by letter (`ident_at`).
-/

namespace KernelLaunch

namespace Reader

/-! ## The bytes of a literal -/

/-- The bytes of the escaped characters, as they stand between the quotes of a literal. -/
def escapedBytes (cs : List Char) : List UInt8 := cs.flatMap fun c => utf8 (Json.escapeChar c)

theorem utf8_join (ss : List String) : utf8 (String.join ss) = ss.flatMap utf8 := by
  simp only [utf8, String.toList_join, List.flatMap_assoc]
  rfl

theorem utf8_singleton (c : Char) : utf8 (String.singleton c) = String.utf8EncodeChar c := by
  simp [utf8]

/-- A literal is its escaped characters between two quotes. -/
theorem utf8_quote (s : String) : utf8 (Json.quote s) = 34 :: escapedBytes s.toList ++ [34] := by
  simp only [Json.quote, utf8_append, utf8_join, List.flatMap_map, escapedBytes]
  rfl

theorem hexValue_hexDigit : ∀ k, k < 16 → (String.utf8EncodeChar (Json.hexDigit k)).map hexValue = [some k] := by
  decide

theorem utf8_hexByte (n : Nat) : ∃ b1 b2, utf8 (Json.hexByte n) = [b1, b2] ∧ hexValue b1 = some (n / 16 % 16) ∧
    hexValue b2 = some (n % 16) := by
  obtain ⟨b1, h1, hv1⟩ := List.map_eq_singleton_iff.mp (hexValue_hexDigit (n / 16 % 16) (Nat.mod_lt _ (by decide)))
  obtain ⟨b2, h2, hv2⟩ := List.map_eq_singleton_iff.mp (hexValue_hexDigit (n % 16) (Nat.mod_lt _ (by decide)))
  refine ⟨b1, b2, ?_, hv1, hv2⟩
  simp [Json.hexByte, utf8, h1, h2]

/-- The first byte of a character: the character itself below 128, a leading byte from 192 on
above. -/
theorem utf8EncodeChar_head (c : Char) : ∃ b rest, String.utf8EncodeChar c = b :: rest ∧
    (c.toNat < 128 → b.toNat = c.toNat) ∧ (128 ≤ c.toNat → 192 ≤ b.toNat) := by
  have hv : c.toNat < 1114112 := by
    have := c.valid
    simp only [UInt32.isValidChar, Nat.isValidChar] at this
    simp only [Char.toNat]
    omega
  simp only [String.utf8EncodeChar]
  simp only [Char.toNat] at hv ⊢
  generalize c.val.toNat = v at hv ⊢
  by_cases h1 : v ≤ 127
  · simp only [h1, if_true]
    refine ⟨_, _, rfl, fun _ => ?_, fun _ => ?_⟩ <;> simp only [UInt8.toNat_ofNat'] <;> omega
  by_cases h2 : v ≤ 2047
  · simp only [h1, h2, if_true, if_false]
    refine ⟨_, _, rfl, fun _ => ?_, fun _ => ?_⟩ <;> simp only [UInt8.toNat_ofNat'] <;> omega
  by_cases h3 : v ≤ 65535
  · simp only [h1, h2, h3, if_true, if_false]
    refine ⟨_, _, rfl, fun _ => ?_, fun _ => ?_⟩ <;> simp only [UInt8.toNat_ofNat'] <;> omega
  · simp only [h1, h2, h3, if_false]
    refine ⟨_, _, rfl, fun _ => ?_, fun _ => ?_⟩ <;> simp only [UInt8.toNat_ofNat'] <;> omega

theorem utf8_ne_nil {s : String} (h : s.toList ≠ []) : utf8 s ≠ [] := by
  obtain ⟨c, cs, hc⟩ := List.exists_cons_of_ne_nil h
  simp [utf8, hc, String.utf8EncodeChar_ne_nil]

/-- Every character is escaped to at least one byte. -/
theorem one_le_length_escapeChar (c : Char) : 1 ≤ (utf8 (Json.escapeChar c)).length := by
  apply List.length_pos_iff.mpr (utf8_ne_nil ?_)
  unfold Json.escapeChar
  repeat' split
  all_goals simp [String.toList_append]

theorem length_le_escapedBytes (cs : List Char) : cs.length ≤ (escapedBytes cs).length := by
  induction cs with
  | nil => simp [escapedBytes]
  | cons c cs ih =>
      have := one_le_length_escapeChar c
      simp only [escapedBytes, List.flatMap_cons, List.length_append, List.length_cons] at ih ⊢
      omega

/-! ## One character -/

variable {l r : List UInt8} {i depth : Nat}

/-- The reader decodes the UTF-8 bytes of a character back to the character. -/
theorem utf8Char_at {c : Char} (h : l.drop i = String.utf8EncodeChar c ++ r) :
    utf8Char (Cursor.at l i depth) = .ok c (Cursor.at l (i + (String.utf8EncodeChar c).length) depth) := by
  have byte : ∀ k < (String.utf8EncodeChar c).length,
      (l[i + k]?.getD 0).toNat = ((String.utf8EncodeChar c)[k]?.getD 0).toNat := fun k hk => by
    rw [getElem?_of_drop_append h hk]
  have hc : Char.ofNat c.val.toNat = c := Char.ofNat_toNat c
  have hv : c.val.toNat < 1114112 := by
    have := c.valid
    simp only [UInt32.isValidChar, Nat.isValidChar] at this
    omega
  simp only [utf8Char, Cursor.at, get, getThe, MonadStateOf.get, EStateM.get, set, MonadStateOf.set, EStateM.set,
    pure, EStateM.pure, bind, EStateM.bind, getElem?_toByteArray]
  simp only [String.utf8EncodeChar] at byte ⊢
  generalize c.val.toNat = v at byte hc hv ⊢
  -- one case per length of the encoding; in each the decoder's arithmetic undoes the encoder's
  by_cases h1 : v ≤ 127
  · simp only [h1, if_true] at byte ⊢
    have b0 := byte 0 (by simp)
    simp only [Nat.add_zero, List.getElem?_cons_zero, Option.getD_some, UInt8.toNat_ofNat'] at b0
    rw [b0, if_pos (by omega), Nat.mod_eq_of_lt (by omega : v < 256), hc]
    rfl
  by_cases h2 : v ≤ 2047
  · simp only [h1, h2, if_true, if_false] at byte ⊢
    have b0 := byte 0 (by simp)
    have b1 := byte 1 (by simp)
    simp [UInt8.toNat_ofNat'] at b0 b1
    rw [b0, b1, if_neg (by omega), if_pos (by omega)]
    have hcp : (v / 64 % 32 + 192) % 256 % 32 * 64 + (v % 64 + 128) % 256 % 64 = v := by omega
    simp only [hcp, hc]
    rfl
  by_cases h3 : v ≤ 65535
  · simp only [h1, h2, h3, if_true, if_false] at byte ⊢
    have b0 := byte 0 (by simp)
    have b1 := byte 1 (by simp)
    have b2 := byte 2 (by simp)
    simp [UInt8.toNat_ofNat'] at b0 b1 b2
    rw [b0, b1, b2, if_neg (by omega), if_neg (by omega), if_pos (by omega)]
    have hcp : ((v / 4096 % 16 + 224) % 256 % 16 * 64 + (v / 64 % 64 + 128) % 256 % 64) * 64
        + (v % 64 + 128) % 256 % 64 = v := by omega
    simp only [hcp, hc]
    rfl
  · simp only [h1, h2, h3, if_false] at byte ⊢
    have b0 := byte 0 (by simp)
    have b1 := byte 1 (by simp)
    have b2 := byte 2 (by simp)
    have b3 := byte 3 (by simp)
    simp [UInt8.toNat_ofNat'] at b0 b1 b2 b3
    rw [b0, b1, b2, b3, if_neg (by omega), if_neg (by omega), if_neg (by omega)]
    have hcp : (((v / 262144 % 8 + 240) % 256 % 8 * 64 + (v / 4096 % 64 + 128) % 256 % 64) * 64
        + (v / 64 % 64 + 128) % 256 % 64) * 64 + (v % 64 + 128) % 256 % 64 = v := by omega
    simp only [hcp, hc]
    rfl

theorem nextInString_at {b : UInt8} (h : l[i]? = some b) :
    nextInString (Cursor.at l i depth) = .ok b (Cursor.at l (i + 1) depth) := by
  unfold nextInString
  rw [bind_ok (next_at h)]
  rfl

/-- Four hexadecimal digits are read as their value. -/
theorem hexEscape_at {b0 b1 b2 b3 : UInt8} {n0 n1 n2 n3 : Nat} (h : l.drop i = [b0, b1, b2, b3] ++ r)
    (h0 : hexValue b0 = some n0) (h1 : hexValue b1 = some n1) (h2 : hexValue b2 = some n2)
    (h3 : hexValue b3 = some n3) :
    hexEscape (Cursor.at l i depth) = .ok (((n0 * 16 + n1) * 16 + n2) * 16 + n3) (Cursor.at l (i + 4) depth) := by
  have hlen : i + 4 ≤ l.length := by
    have := congrArg List.length h
    simp only [List.length_drop, List.length_append, List.length_cons, List.length_nil] at this
    omega
  have e0 := getElem?_of_drop_append h (k := 0) (by simp)
  have e1 := getElem?_of_drop_append h (k := 1) (by simp)
  have e2 := getElem?_of_drop_append h (k := 2) (by simp)
  have e3 := getElem?_of_drop_append h (k := 3) (by simp)
  simp only [Nat.add_zero, List.getElem?_cons_zero, List.getElem?_cons_succ] at e0 e1 e2 e3
  simp only [hexEscape, Cursor.at, get, getThe, MonadStateOf.get, EStateM.get, set, MonadStateOf.set, EStateM.set,
    bind, EStateM.bind, List.size_toByteArray, hlen, if_true, getElem?_toByteArray, e0, e1, e2, e3, List.map_cons,
    List.map_nil, Option.bind_some, h0, h1, h2, h3]
  rfl

/-! ## Escapes -/

/-- A backslash escape is read as the character it stands for, and the body goes on after it. -/
theorem stringBody_go_escape {fuel : Nat} {acc : Array Char} {ch : Char} {j : Nat} (h : l[i]? = some 92)
    (he : escape (Cursor.at l (i + 1) depth) = .ok ch (Cursor.at l j depth)) :
    stringBody.go (fuel + 1) acc (Cursor.at l i depth) = stringBody.go fuel (acc.push ch) (Cursor.at l j depth) := by
  rw [stringBody.go, bind_ok peek_at, h]
  simp only
  rw [bind_ok eat_at, bind_ok he]

/-- The escape of a control character without a short form: `\u00` and two hexadecimal digits. -/
theorem escape_unicode {c : Char} (hc : c.toNat < 32) (h : l.drop i = utf8 ("u00" ++ Json.hexByte c.toNat) ++ r) :
    escape (Cursor.at l i depth) = .ok c (Cursor.at l (i + 5) depth) := by
  obtain ⟨b1, b2, hb, hv1, hv2⟩ := utf8_hexByte c.toNat
  have hu : utf8 "u00" = [117, 48, 48] := by decide
  rw [utf8_append, hu, hb] at h
  have hx : hexEscape (Cursor.at l (i + 1) depth) = .ok c.toNat (Cursor.at l (i + 1 + 4) depth) := by
    have h' : l.drop (i + 1) = [48, 48, b1, b2] ++ r := @drop_shift l [117] _ i h
    rw [hexEscape_at h' (show hexValue 48 = some 0 by decide) (show hexValue 48 = some 0 by decide) hv1 hv2]
    congr 1
    omega
  unfold escape
  rw [bind_ok (nextInString_at (getElem?_of_drop h))]
  simp only [unicodeEscape]
  rw [bind_ok hx]
  have hlo : ¬ (0xDC00 ≤ c.toNat && c.toNat ≤ 0xDFFF) = true := by simp; omega
  have hhi : (c.toNat < 0xD800 || c.toNat > 0xDBFF) = true := by simp; omega
  rw [if_neg hlo, if_pos hhi, Char.ofNat_toNat]
  rfl

/-- A byte that is neither a quote, nor a backslash, nor a control character. -/
theorem stringBody_go_plain {fuel : Nat} {acc : Array Char} {c : Char} (h : l.drop i = String.utf8EncodeChar c ++ r)
    (h34 : c ≠ '"') (h92 : c ≠ '\\') (h32 : ¬ c.toNat < 32) :
    stringBody.go (fuel + 1) acc (Cursor.at l i depth) =
      stringBody.go fuel (acc.push c) (Cursor.at l (i + (String.utf8EncodeChar c).length) depth) := by
  obtain ⟨b, rest, hb, hlo, hhi⟩ := utf8EncodeChar_head c
  have hpeek : l[i]? = some b := getElem?_of_drop (by rw [h, hb]; rfl)
  have hc34 : c.toNat ≠ 34 := fun e => h34 (Char.toNat_inj.mp e)
  have hc92 : c.toNat ≠ 92 := fun e => h92 (Char.toNat_inj.mp e)
  have hb34 : b ≠ 34 := fun e => by
    have := congrArg UInt8.toNat e
    by_cases hc : c.toNat < 128
    · exact hc34 (by rw [← hlo hc]; exact this)
    · have := hhi (by omega); simp_all
  have hb92 : b ≠ 92 := fun e => by
    have := congrArg UInt8.toNat e
    by_cases hc : c.toNat < 128
    · exact hc92 (by rw [← hlo hc]; exact this)
    · have := hhi (by omega); simp_all
  have hb32 : ¬ b < 32 := by
    rw [UInt8.lt_iff_toNat_lt]
    by_cases hc : c.toNat < 128
    · rw [hlo hc]; simpa using h32
    · have := hhi (by omega); simp; omega
  rw [stringBody.go, bind_ok peek_at, hpeek, stringBody.go.match_1.eq_4 _ b _ _ _ _ hb34 hb92, if_neg hb32,
    bind_ok (utf8Char_at h)]

/-- The escapes of one letter after the backslash, and the characters they stand for. -/
def shortEscapes : List (UInt8 × Char) :=
  [(34, '"'), (92, '\\'), (47, '/'), (98, Char.ofNat 8), (102, Char.ofNat 12), (110, '\n'), (114, '\r'),
    (116, '\t')]

theorem escape_short {x : UInt8} {ch : Char} (h : l[i]? = some x) (hx : (x, ch) ∈ shortEscapes) :
    escape (Cursor.at l i depth) = .ok ch (Cursor.at l (i + 1) depth) := by
  unfold escape
  rw [bind_ok (nextInString_at h)]
  simp only [shortEscapes, List.mem_cons, Prod.mk.injEq, List.not_mem_nil, or_false] at hx
  rcases hx with ⟨rfl, rfl⟩ | ⟨rfl, rfl⟩ | ⟨rfl, rfl⟩ | ⟨rfl, rfl⟩ | ⟨rfl, rfl⟩ | ⟨rfl, rfl⟩ | ⟨rfl, rfl⟩ |
    ⟨rfl, rfl⟩ <;> rfl

theorem stringBody_go_short {fuel : Nat} {acc : Array Char} {x : UInt8} {ch : Char} (h : l.drop i = [92, x] ++ r)
    (hx : (x, ch) ∈ shortEscapes) :
    stringBody.go (fuel + 1) acc (Cursor.at l i depth) = stringBody.go fuel (acc.push ch) (Cursor.at l (i + 2) depth) :=
  stringBody_go_escape (getElem?_of_drop h) (escape_short (getElem?_of_drop_append h (k := 1) (by simp)) hx)

/-- One escaped character is read as the character, and the body goes on after its escape. -/
theorem stringBody_go_char {fuel : Nat} {acc : Array Char} (c : Char) (h : l.drop i = utf8 (Json.escapeChar c) ++ r) :
    stringBody.go (fuel + 1) acc (Cursor.at l i depth) =
      stringBody.go fuel (acc.push c) (Cursor.at l (i + (utf8 (Json.escapeChar c)).length) depth) := by
  unfold Json.escapeChar at h ⊢
  -- one case per branch of the escape: seven short escapes, the unicode escape, and the rest
  by_cases c1 : c = '"'
  · rw [if_pos c1] at h ⊢
    subst c1
    rw [show utf8 "\\\"" = [92, 34] by decide] at h ⊢
    exact stringBody_go_short h (by decide)
  rw [if_neg c1] at h ⊢
  by_cases c2 : c = '\\'
  · rw [if_pos c2] at h ⊢
    subst c2
    rw [show utf8 "\\\\" = [92, 92] by decide] at h ⊢
    exact stringBody_go_short h (by decide)
  rw [if_neg c2] at h ⊢
  by_cases c3 : c = '\n'
  · rw [if_pos c3] at h ⊢
    subst c3
    rw [show utf8 "\\n" = [92, 110] by decide] at h ⊢
    exact stringBody_go_short h (by decide)
  rw [if_neg c3] at h ⊢
  by_cases c4 : c = '\r'
  · rw [if_pos c4] at h ⊢
    subst c4
    rw [show utf8 "\\r" = [92, 114] by decide] at h ⊢
    exact stringBody_go_short h (by decide)
  rw [if_neg c4] at h ⊢
  by_cases c5 : c = '\t'
  · rw [if_pos c5] at h ⊢
    subst c5
    rw [show utf8 "\\t" = [92, 116] by decide] at h ⊢
    exact stringBody_go_short h (by decide)
  rw [if_neg c5] at h ⊢
  by_cases c6 : c.toNat = 8
  · rw [if_pos c6] at h ⊢
    obtain rfl : c = Char.ofNat 8 := by rw [← Char.ofNat_toNat c, c6]
    rw [show utf8 "\\b" = [92, 98] by decide] at h ⊢
    exact stringBody_go_short h (by decide)
  rw [if_neg c6] at h ⊢
  by_cases c7 : c.toNat = 12
  · rw [if_pos c7] at h ⊢
    obtain rfl : c = Char.ofNat 12 := by rw [← Char.ofNat_toNat c, c7]
    rw [show utf8 "\\f" = [92, 102] by decide] at h ⊢
    exact stringBody_go_short h (by decide)
  rw [if_neg c7] at h ⊢
  by_cases c8 : c.toNat < 32
  · rw [if_pos c8] at h ⊢
    obtain ⟨b1, b2, hb, -, -⟩ := utf8_hexByte c.toNat
    rw [utf8_append, show utf8 "\\u00" = [92, 117, 48, 48] by decide] at h ⊢
    have h' : l.drop (i + 1) = utf8 ("u00" ++ Json.hexByte c.toNat) ++ r := by
      rw [utf8_append, show utf8 "u00" = [117, 48, 48] by decide]
      exact @drop_shift l [92] _ i (by rw [h]; rfl)
    rw [stringBody_go_escape (getElem?_of_drop h) (escape_unicode c8 h'), hb]
    rfl
  rw [if_neg c8] at h ⊢
  rw [utf8_singleton] at h ⊢
  exact stringBody_go_plain h c1 c2 c8

/-! ## Whole literals -/

/-- The body of a literal is read as its characters, up to and past the closing quote. -/
theorem stringBody_go_chars : ∀ (cs : List Char) {fuel : Nat} {acc : Array Char} {i : Nat}, cs.length < fuel →
    l.drop i = escapedBytes cs ++ 34 :: r →
    stringBody.go fuel acc (Cursor.at l i depth) =
      .ok (String.ofList (acc.toList ++ cs)) (Cursor.at l (i + (escapedBytes cs).length + 1) depth)
  | [], fuel + 1, acc, i, _, h => by
      have hq : l[i]? = some 34 := getElem?_of_drop h
      rw [stringBody.go, bind_ok peek_at, hq]
      simp only
      rw [bind_ok eat_at]
      simp [escapedBytes]
      rfl
  | c :: cs, fuel + 1, acc, i, hlen, h => by
      have h' : l.drop i = utf8 (Json.escapeChar c) ++ (escapedBytes cs ++ 34 :: r) := by
        rw [h]; simp [escapedBytes]
      rw [stringBody_go_char c h', stringBody_go_chars cs (by simp at hlen; omega) (drop_shift h')]
      simp only [Array.toList_push, List.append_assoc, List.singleton_append, escapedBytes, List.flatMap_cons,
        List.length_append]
      congr 2
      omega

/-- The body of a literal, after its opening quote, is read as the string. -/
theorem stringBody_at {s : String} (h : l.drop i = escapedBytes s.toList ++ 34 :: r) :
    stringBody (Cursor.at l i depth) = .ok s (Cursor.at l (i + (escapedBytes s.toList).length + 1) depth) := by
  have hfuel : s.toList.length < l.length - i + 2 := by
    have := congrArg List.length h
    have := length_le_escapedBytes s.toList
    simp only [List.length_drop, List.length_append, List.length_cons] at *
    omega
  unfold stringBody
  rw [bind_ok budget_at, stringBody_go_chars s.toList hfuel h]
  simp [String.ofList_toList]

/-- A string literal is read as its string. -/
theorem reads_string (s : String) : Reads string (utf8 (Json.quote s)) s 0 := by
  intro l i depth ws post h hws _ _
  have hd : l.drop i = ws ++ 34 :: (escapedBytes s.toList ++ 34 :: post) := by
    rw [h, utf8_quote]; simp
  have hbody : l.drop (i + ws.length + 1) = escapedBytes s.toList ++ 34 :: post :=
    @drop_shift l [34] _ _ (drop_shift hd)
  unfold string
  apply fixed_ok
  rw [bind_ok (valueStart_at hd hws rfl)]
  simp only [beq_self_eq_true, if_true]
  rw [bind_ok eat_at, stringBody_at hbody, utf8_quote]
  simp only [List.length_cons, List.length_append, List.length_nil]
  congr 2
  omega

/-! ## Words -/

/-- A loop over the bytes of a word whose every step reads the byte it is given and goes on
reads the word. -/
theorem forIn_at {f : UInt8 → PUnit → Decoder (ForInStep PUnit)}
    (hf : ∀ b j, l[j]? = some b → f b () (Cursor.at l j depth) = .ok (.yield ()) (Cursor.at l (j + 1) depth)) :
    ∀ (word : List UInt8) {i : Nat}, l.drop i = word ++ r →
      forIn word () f (Cursor.at l i depth) = .ok () (Cursor.at l (i + word.length) depth)
  | [], i, _ => rfl
  | b :: word, i, h => by
      rw [List.forIn_cons, bind_ok (hf b i (getElem?_of_drop h))]
      simp only
      have h' : l.drop (i + 1) = word ++ r := @drop_shift l [b] _ i h
      refine (forIn_at hf word h').trans ?_
      simp only [List.length_cons]
      congr 2
      omega

/-- The letters of a word are read one by one. -/
theorem ident_at {word : List UInt8} (h : l.drop i = word ++ r) :
    ident word (Cursor.at l i depth) = .ok () (Cursor.at l (i + word.length) depth) := by
  unfold ident
  refine (bind_ok (forIn_at ?_ word h)).trans rfl
  intro b j hb
  rw [bind_ok (next_at hb)]
  simp only [bne_self_eq_false, Bool.false_eq_true, if_false]
  rfl

end Reader

end KernelLaunch
