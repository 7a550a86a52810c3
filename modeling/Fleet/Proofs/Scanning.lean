import Fleet.Json.Reader
import Fleet.Json.Writer

/-!
# The tokens of what was written

The text of a value is cut into the tokens of that value (`toTokens`), whatever stands behind it that no
bare word goes on with:

    scan? .between (j.chars ++ rest) = (scan? .between rest).map (j.toTokens ++ ·)          (scan?_chars)

The value has to be plain: its numbers are whole numbers that are read as such, and nothing in it cannot
be held. -/

namespace Fleet.Json

/-! ## Plain values and their tokens -/

mutual

/-- Whether all numbers in a value are whole numbers from `-2^63` to `2^64 - 1`, and all of it can be
held. -/
def isPlain : Json → Bool
  | .null | .bool _ | .str _ => true
  | .int n => Int64.minValue.toInt ≤ n && n ≤ (significandLimit : Int)
  | .real _ | .beyond => false
  | .arr items => itemsPlain items
  | .obj members => membersPlain members

def itemsPlain : List Json → Bool
  | [] => true
  | j :: rest => isPlain j && itemsPlain rest

def membersPlain : List (String × Json) → Bool
  | [] => true
  | (_, j) :: rest => isPlain j && membersPlain rest

end

mutual

def toTokens : Json → List Token
  | .arr items => .openArray :: itemTokens items
  | .obj members => .openObject :: memberTokens members
  | .str s => [.text (some s)]
  | j => [.scalar j]

/-- The tokens of the items of an array and of its closing bracket. -/
def itemTokens : List Json → List Token
  | [] => [.closeArray]
  | [j] => toTokens j ++ [.closeArray]
  | j :: rest => toTokens j ++ .comma :: itemTokens rest

/-- The tokens of the members of an object and of its closing brace. -/
def memberTokens : List (String × Json) → List Token
  | [] => [.closeObject]
  | [(k, j)] => .text (some k) :: .colon :: (toTokens j ++ [.closeObject])
  | (k, j) :: rest => .text (some k) :: .colon :: (toTokens j ++ .comma :: memberTokens rest)

end

/-! ## One character further -/

theorem scan?_cons (mode : Mode) (c : Char) (rest : List Char) :
    scan? mode (c :: rest) = (advance? mode c).bind fun r => (scan? r.2 rest).map (r.1 ++ ·) := by
  rw [scan?]
  show (advance? mode c).bind _ = _
  congr 1
  funext r
  show (scan? r.2 rest).bind _ = _
  cases scan? r.2 rest <;> rfl

theorem scan?_of_advance? {mode after : Mode} {c : Char} {tokens : List Token}
    (h : advance? mode c = some (tokens, after)) (rest : List Char) :
    scan? mode (c :: rest) = (scan? after rest).map (tokens ++ ·) := by
  rw [scan?_cons, h]
  rfl

theorem scan?_silently {mode after : Mode} {c : Char} (h : advance? mode c = some ([], after))
    (rest : List Char) : scan? mode (c :: rest) = scan? after rest := by
  rw [scan?_of_advance? h]
  cases scan? after rest <;> rfl

/-! ## Strings -/

theorem hexDigit_spec : ∀ n < 16, hexDigit n ≠ '"' ∧ hexDigit n ≠ '\\' ∧
    hexValue? (hexDigit n) = some n := by decide

theorem advance?_quoted {c : Char} (hquote : c ≠ '"') (hslash : c ≠ '\\') (before : List Char) :
    advance? (.quoted before) c = some ([], .quoted (c :: before)) := by
  simp only [advance?, if_neg hquote, if_neg hslash]

/-- Inside of a string, an escape of two characters is passed over. -/
theorem scan?_escape (e : Char) (before rest : List Char) :
    scan? (.quoted before) ('\\' :: e :: rest) = scan? (.quoted (e :: '\\' :: before)) rest := by
  rw [scan?_silently rfl, scan?_silently rfl]

theorem scan?_escapedChar (c : Char) (before rest : List Char) :
    scan? (.quoted before) (escapedChar c ++ rest) =
      scan? (.quoted ((escapedChar c).reverse ++ before)) rest := by
  unfold escapedChar
  iterate 7
    split
    · exact scan?_escape ..
  split
  · obtain ⟨hquote, hslash, -⟩ := hexDigit_spec (c.toNat / 16) (by omega)
    obtain ⟨hquote', hslash', -⟩ := hexDigit_spec (c.toNat % 16) (by omega)
    refine (scan?_escape ..).trans ?_
    show scan? _ ('0' :: '0' :: hexDigit (c.toNat / 16) :: hexDigit (c.toNat % 16) :: rest) = _
    rw [scan?_silently (advance?_quoted (by decide) (by decide) _),
      scan?_silently (advance?_quoted (by decide) (by decide) _),
      scan?_silently (advance?_quoted hquote hslash _),
      scan?_silently (advance?_quoted hquote' hslash' _)]
    rfl
  · rename_i hquote hslash _ _ _ _ _ _
    exact scan?_silently (advance?_quoted hquote hslash _) _

theorem scan?_escaped (cs before rest : List Char) :
    scan? (.quoted before) (cs.flatMap escapedChar ++ '"' :: rest) =
      (ofQuoted? (before.reverse ++ cs.flatMap escapedChar)).bind fun s =>
        (scan? .between rest).map (.text s :: ·) := by
  induction cs generalizing before with
  | nil =>
    rw [List.flatMap_nil, List.nil_append, List.append_nil, scan?_cons]
    show ((ofQuoted? before.reverse).bind _).bind _ = _
    cases ofQuoted? before.reverse <;> rfl
  | cons c cs ih =>
    rw [List.flatMap_cons, List.append_assoc, scan?_escapedChar, ih, List.reverse_append,
      List.reverse_reverse, List.append_assoc]

theorem joined?_char (c : Char) (ps : List Piece) :
    joined? (.char c :: ps) = (joined? ps).map (c :: ·) := by
  rw [joined?]
  cases joined? ps <;> rfl

theorem joined?_control {c : Char} (h : c.toNat < 32) (ps : List Piece) :
    joined? (.unit c.toNat :: ps) = (joined? ps).map (c :: ·) := by
  conv =>
    lhs
    unfold joined?
  rw [if_pos (.inl (by omega)), Char.ofNat_toNat]
  cases joined? ps <;> rfl

theorem pieces?_plain {c : Char} (hslash : c ≠ '\\') (h : ¬ c.toNat < 32) (rest : List Char) :
    pieces? (c :: rest) = (pieces? rest).map (.char c :: ·) := by
  rw [pieces?, if_neg h]
  · cases pieces? rest <;> rfl
  all_goals
    intros
    exact hslash ‹_›

theorem pieces?_control {c : Char} (h : c.toNat < 32) (rest : List Char) :
    pieces? ('\\' :: 'u' :: '0' :: '0' :: hexDigit (c.toNat / 16) :: hexDigit (c.toNat % 16) :: rest) =
      (pieces? rest).map (.unit c.toNat :: ·) := by
  obtain ⟨-, -, hhigh⟩ := hexDigit_spec (c.toNat / 16) (by omega)
  obtain ⟨-, -, hlow⟩ := hexDigit_spec (c.toNat % 16) (by omega)
  have hzero : hexValue? '0' = some 0 := by decide
  have hsum : 4096 * 0 + 256 * 0 + 16 * (c.toNat / 16) + c.toNat % 16 = c.toNat := by omega
  rw [pieces?, hzero, hhigh, hlow]
  show (pieces? rest).bind (fun ps => some (.unit (4096 * 0 + 256 * 0 + 16 * (c.toNat / 16) +
    c.toNat % 16) :: ps)) = _
  rw [hsum]
  cases pieces? rest <;> rfl

/-- An escaped character is one piece of a string, and that piece is the character. -/
theorem exists_piece (c : Char) : ∃ p : Piece,
    (∀ rest, pieces? (escapedChar c ++ rest) = (pieces? rest).map (p :: ·)) ∧
      ∀ ps, joined? (p :: ps) = (joined? ps).map (c :: ·) := by
  unfold escapedChar
  iterate 7
    split
    · rename_i h
      subst h
      refine ⟨.char _, fun rest => ?_, joined?_char _⟩
      show pieces? ('\\' :: _ :: rest) = _
      rw [pieces?]
      cases pieces? rest <;> rfl
  split
  · rename_i h
    exact ⟨_, pieces?_control h, joined?_control h⟩
  · rename_i hslash _ _ _ _ _ h
    exact ⟨_, pieces?_plain hslash h, joined?_char c⟩

theorem ofQuoted?_escaped (cs : List Char) :
    ofQuoted? (cs.flatMap escapedChar) = some (some (String.ofList cs)) := by
  have hpieces : ∃ ps, pieces? (cs.flatMap escapedChar) = some ps ∧ joined? ps = some cs := by
    induction cs with
    | nil => exact ⟨[], rfl, rfl⟩
    | cons c cs ih =>
      obtain ⟨ps, hps, hjoined⟩ := ih
      obtain ⟨p, hpiece, hchar⟩ := exists_piece c
      refine ⟨p :: ps, ?_, ?_⟩
      · rw [List.flatMap_cons, hpiece, hps, Option.map_some]
      · rw [hchar, hjoined, Option.map_some]
  obtain ⟨ps, hps, hjoined⟩ := hpieces
  simp only [ofQuoted?, hps, hjoined, Option.map_some]

/-- A written string is one token. -/
theorem scan?_stringChars (s : String) (rest : List Char) :
    scan? .between (stringChars s ++ rest) = (scan? .between rest).map (.text (some s) :: ·) := by
  rw [stringChars, List.append_assoc, List.cons_append, List.singleton_append, scan?_silently rfl,
    scan?_escaped, List.reverse_nil, List.nil_append, ofQuoted?_escaped, String.ofList_toList]
  rfl

/-! ## Bare words -/

/-- Whether no bare word goes on with a text. -/
def Ends (rest : List Char) : Prop := ∀ c ∈ rest.head?, isBare c = false

theorem ends_cons {c : Char} (h : isBare c = false) (rest : List Char) : Ends (c :: rest) := by
  intro d hd
  cases hd
  exact h

theorem advance?_bare {c : Char} (h : isBare c = true) (before : List Char) :
    advance? (.word before) c = some ([], .word (c :: before)) := by
  simp only [advance?, h, if_true]

theorem begin?_bare {c : Char} (h : isBare c = true) : begin? c = some ([], .word [c]) := by
  unfold begin?
  split
  case h_12 => exact if_pos h
  -- the signs and the blanks
  all_goals exact absurd h Bool.false_ne_true

theorem scan?_end_of_word (before : List Char) {rest : List Char} (hrest : Ends rest) :
    scan? (.word before) rest =
      (ofWord? before.reverse).bind fun j => (scan? .between rest).map (.scalar j :: ·) := by
  cases rest with
  | nil =>
    have hlast : scan? (.word before) [] = (ofWord? before.reverse).bind fun j => some [.scalar j] := by
      rw [scan?]
      rfl
    rw [hlast]
    rfl
  | cons c rest =>
    have hc : isBare c = false := hrest c rfl
    rw [scan?_cons, scan?_cons]
    simp only [advance?, hc, Bool.false_eq_true, if_false]
    cases ofWord? before.reverse with
    | none => rfl
    | some j =>
      cases begin? c with
      | none => rfl
      | some r =>
        show (scan? r.2 rest).map (Token.scalar j :: r.1 ++ ·) = ((scan? r.2 rest).map (r.1 ++ ·)).map _
        rw [Option.map_map]
        rfl

theorem scan?_word {w : List Char} (hw : ∀ c ∈ w, isBare c = true) (before : List Char)
    {rest : List Char} (hrest : Ends rest) :
    scan? (.word before) (w ++ rest) =
      (ofWord? (before.reverse ++ w)).bind fun j => (scan? .between rest).map (.scalar j :: ·) := by
  induction w generalizing before with
  | nil => rw [List.nil_append, List.append_nil, scan?_end_of_word before hrest]
  | cons c w ih =>
    rw [List.cons_append, scan?_silently (advance?_bare (hw c (.head _)) _),
      ih (fun d hd => hw d (.tail _ hd)), List.reverse_cons, List.append_assoc,
      List.singleton_append]

/-- A bare word is one token. -/
theorem scan?_bareword {c : Char} (w : List Char) (hw : (c :: w).all isBare = true)
    {rest : List Char} (hrest : Ends rest) {j : Json} (hword : ofWord? (c :: w) = some j) :
    scan? .between (c :: w ++ rest) = (scan? .between rest).map (.scalar j :: ·) := by
  rw [List.all_eq_true] at hw
  have hc : advance? .between c = some ([], .word [c]) := begin?_bare (hw c (.head _))
  rw [List.cons_append, scan?_silently hc, scan?_word (fun d hd => hw d (.tail _ hd)) _ hrest]
  show (ofWord? (c :: w)).bind _ = _
  rw [hword]
  rfl

/-! ## Whole numbers -/

theorem eq_zero_of_head? (n : Nat) (h : (Nat.toDigits 10 n).head? = some '0') : n = 0 := by
  induction n using Nat.strongRecOn with
  | ind n ih =>
    by_cases hn : n < 10
    · have hdigits : ∀ n < 10, Nat.digitChar n = '0' → n = 0 := by decide
      rw [Nat.toDigits_of_lt_base hn] at h
      exact hdigits n hn (Option.some.inj h)
    · have hsplit := Nat.toDigits_of_base_le (b := 10) (n := n) (by decide) (by omega)
      have hhead : (Nat.toDigits 10 (n / 10)).head? = some '0' := by
        cases hfront : Nat.toDigits 10 (n / 10) with
        | nil => exact absurd hfront Nat.toDigits_ne_nil
        | cons c cs =>
          rw [hsplit, hfront] at h
          exact h
      have hzero := ih (n / 10) (by omega) hhead
      omega

theorem le_ofDigitChars (ds : List Char) (n : Nat) : n ≤ Nat.ofDigitChars 10 ds n := by
  induction ds generalizing n with
  | nil => exact Nat.le_refl n
  | cons d ds ih =>
    rw [Nat.ofDigitChars_cons]
    have hrest := ih (10 * n + (d.toNat - '0'.toNat))
    omega

/-- A number that stays in the limit is gathered whole. -/
theorem gather_eq {ds : List Char} {n : Nat} (h : Nat.ofDigitChars 10 ds n ≤ significandLimit) :
    gather n ds = (Nat.ofDigitChars 10 ds n, ds.length) := by
  induction ds generalizing n with
  | nil => rfl
  | cons d ds ih =>
    have hcons : Nat.ofDigitChars 10 (d :: ds) n =
        Nat.ofDigitChars 10 ds (Nat.ofDigitChars 10 [d] n) := by
      rw [Nat.ofDigitChars_cons, Nat.ofDigitChars_cons, Nat.ofDigitChars_nil]
    rw [hcons] at h
    have hfits : ¬ significandLimit < Nat.ofDigitChars 10 [d] n := by
      have hle := le_ofDigitChars ds (Nat.ofDigitChars 10 [d] n)
      omega
    simp only [gather, if_neg hfits, ih h, ← hcons, List.length_cons]

/-- Digits without a needless zero in front are a number. -/
theorem Numeral.unsigned?_digits {ds : List Char} (hne : ds ≠ [])
    (hall : ∀ c ∈ ds, c.isDigit = true) (hzero : ds.head? = some '0' → ds = ['0'])
    (negative : Bool) : Numeral.unsigned? negative ds = some ⟨negative, ds, none, none⟩ := by
  have hwhole : ds.takeWhile Char.isDigit = ds := by
    have h : (ds ++ []).takeWhile Char.isDigit = ds ++ [].takeWhile Char.isDigit :=
      List.takeWhile_append_of_pos hall
    rwa [List.append_nil, List.takeWhile_nil, List.append_nil] at h
  have hrest : ds.dropWhile Char.isDigit = [] := by
    have h := List.takeWhile_append_dropWhile (p := Char.isDigit) (l := ds)
    rw [hwhole] at h
    exact List.append_right_eq_self.1 h
  unfold Numeral.unsigned?
  rw [hwhole, hrest]
  show (if _ then _ else _ : Option Unit).bind _ = _
  rw [if_pos ⟨hne, hzero⟩]
  rfl

section Numbers

variable {n : Nat}

theorem isDigit_of_mem_toDigits {c : Char} (h : c ∈ Nat.toDigits 10 n) : c.isDigit = true :=
  Nat.isDigit_of_mem_toDigits (by decide) (by decide) h

theorem of?_toDigits (n : Nat) :
    Numeral.of? (Nat.toDigits 10 n) = some ⟨false, Nat.toDigits 10 n, none, none⟩ ∧
      Numeral.of? ('-' :: Nat.toDigits 10 n) = some ⟨true, Nat.toDigits 10 n, none, none⟩ := by
  have hzero : (Nat.toDigits 10 n).head? = some '0' → Nat.toDigits 10 n = ['0'] := by
    intro h
    rw [eq_zero_of_head? n h]
    rfl
  have hdigits := Numeral.unsigned?_digits Nat.toDigits_ne_nil
    (fun c hc => isDigit_of_mem_toDigits hc) hzero
  refine ⟨?_, hdigits true⟩
  rw [← hdigits false]
  unfold Numeral.of?
  split
  · rename_i cs heq
    have hminus : '-' ∈ Nat.toDigits 10 n := by rw [heq]; exact .head _
    exact absurd (isDigit_of_mem_toDigits hminus) (by decide)
  · rfl

theorem gather_toDigits (h : n ≤ significandLimit) :
    gather 0 (Nat.toDigits 10 n) = (n, (Nat.toDigits 10 n).length) := by
  have hvalue : Nat.ofDigitChars 10 (Nat.toDigits 10 n) 0 = n := Nat.ofDigitChars_ten_toDigits
  rw [gather_eq (by omega), hvalue]

theorem value_toDigits (h : n ≤ significandLimit) :
    Numeral.value ⟨false, Nat.toDigits 10 n, none, none⟩ = .int n := by
  simp only [Numeral.value, gather_toDigits h, Nat.sub_self, if_true, Bool.not_false]

theorem value_negative (hn : n ≠ 0) (h : Int64.minValue.toInt ≤ -(n : Int)) :
    Numeral.value ⟨true, Nat.toDigits 10 n, none, none⟩ = .int (-(n : Int)) := by
  have hlimit : n ≤ significandLimit := by
    have hmin : Int64.minValue.toInt = -9223372036854775808 := by decide
    have hmax : significandLimit = 18446744073709551615 := by decide
    omega
  simp only [Numeral.value, gather_toDigits hlimit, Nat.sub_self, if_true, Bool.not_true,
    Bool.false_eq_true, if_false]
  rw [if_pos ⟨hn, h⟩]

/-- A word of digits and signs is none of the three names. -/
theorem ofWord?_of_forall {cs : List Char} (h : ∀ c ∈ cs, c.isDigit = true ∨ c = '-') :
    ofWord? cs = (Numeral.of? cs).map Numeral.value := by
  have hname : ∀ (c : Char) (name : String), c ∈ name.toList → c.isDigit = false → c ≠ '-' →
      cs ≠ name.toList := by
    rintro c name hc hdigit hminus rfl
    rcases h c hc with h | h
    · rw [hdigit] at h
      cases h
    · exact hminus h
  unfold ofWord?
  rw [if_neg (hname 'n' "null" (by decide) rfl (by decide)),
    if_neg (hname 't' "true" (by decide) rfl (by decide)),
    if_neg (hname 'f' "false" (by decide) rfl (by decide))]

end Numbers

theorem isBare_of_isDigit {c : Char} (h : c.isDigit = true) : isBare c = true := by
  simp [isBare, Char.isAlphanum, h]

/-- The characters of a whole number are one bare word, which is read as that number. -/
theorem ofWord?_int {n : Int} (hlow : Int64.minValue.toInt ≤ n)
    (hhigh : n ≤ (significandLimit : Int)) : ∃ c w, (toString n).toList = c :: w ∧
      (∀ d ∈ c :: w, isBare d = true) ∧ ofWord? (c :: w) = some (.int n) := by
  cases n with
  | ofNat m =>
    have htext : (toString (Int.ofNat m)).toList = Nat.toDigits 10 m := by
      show (toString m).toList = _
      rw [Nat.toString_eq_ofList_toDigits, String.toList_ofList]
    have hword : ofWord? (Nat.toDigits 10 m) = some (.int m) := by
      rw [ofWord?_of_forall fun c hc => .inl (isDigit_of_mem_toDigits hc), (of?_toDigits m).1,
        Option.map_some, value_toDigits (Int.ofNat_le.1 hhigh)]
    rw [htext]
    cases hdigits : Nat.toDigits 10 m with
    | nil => exact absurd hdigits Nat.toDigits_ne_nil
    | cons c w =>
      rw [← hdigits]
      exact ⟨c, w, hdigits, fun d hd => isBare_of_isDigit (isDigit_of_mem_toDigits (hdigits ▸ hd)),
        hdigits ▸ hword⟩
  | negSucc m =>
    have htext : (toString (Int.negSucc m)).toList = '-' :: Nat.toDigits 10 (m + 1) := by
      show ("-" ++ toString (m + 1)).toList = _
      rw [String.toList_append, Nat.toString_eq_ofList_toDigits, String.toList_ofList,
        String.toList_ofList]
      rfl
    refine ⟨'-', _, htext, ?_, ?_⟩
    · intro d hd
      rcases List.mem_cons.1 hd with rfl | hd
      · rfl
      · exact isBare_of_isDigit (isDigit_of_mem_toDigits hd)
    · have hchars : ∀ c ∈ '-' :: Nat.toDigits 10 (m + 1), c.isDigit = true ∨ c = '-' := by
        intro c hc
        rcases List.mem_cons.1 hc with rfl | hc
        · exact .inr rfl
        · exact .inl (isDigit_of_mem_toDigits hc)
      rw [ofWord?_of_forall hchars, (of?_toDigits (m + 1)).2, Option.map_some,
        value_negative (Nat.succ_ne_zero m) (by omega)]
      rfl

theorem scan?_int {n : Int} (hlow : Int64.minValue.toInt ≤ n) (hhigh : n ≤ (significandLimit : Int))
    {rest : List Char} (hrest : Ends rest) :
    scan? .between ((toString n).toList ++ rest) =
      (scan? .between rest).map (.scalar (.int n) :: ·) := by
  obtain ⟨c, w, htext, hbare, hword⟩ := ofWord?_int hlow hhigh
  rw [htext, scan?_bareword w (List.all_eq_true.2 hbare) hrest hword]

/-! ## Values -/

/-- A sign between values is one token. -/
theorem scan?_mark {c : Char} {t : Token} (h : begin? c = some ([t], .between)) (rest : List Char) :
    scan? .between (c :: rest) = (scan? .between rest).map (t :: ·) :=
  scan?_of_advance? (show advance? .between c = some ([t], .between) from h) rest

mutual

theorem scan?_chars : ∀ {j : Json}, j.isPlain = true → ∀ {rest : List Char}, Ends rest →
    scan? .between (j.chars ++ rest) = (scan? .between rest).map (j.toTokens ++ ·)
  | .null, _, _, hrest => scan?_bareword "ull".toList rfl hrest rfl
  | .bool true, _, _, hrest => scan?_bareword "rue".toList rfl hrest rfl
  | .bool false, _, _, hrest => scan?_bareword "alse".toList rfl hrest rfl
  | .int n, h, rest, hrest => by
    simp only [isPlain, Bool.and_eq_true, decide_eq_true_eq] at h
    exact scan?_int h.1 h.2 hrest
  | .str s, _, rest, _ => scan?_stringChars s rest
  | .arr items, h, rest, _ => by
    rw [chars, List.cons_append, scan?_mark rfl, scan?_itemChars h, Option.map_map]
    rfl
  | .obj members, h, rest, _ => by
    rw [chars, List.cons_append, scan?_mark rfl, scan?_memberChars h, Option.map_map]
    rfl
  | .real _, h, _, _ => by cases h
  | .beyond, h, _, _ => by cases h

theorem scan?_itemChars : ∀ {items : List Json}, itemsPlain items = true → ∀ {rest : List Char},
    scan? .between (itemChars items ++ rest) =
      (scan? .between rest).map (itemTokens items ++ ·)
  | [], _, rest => scan?_mark rfl rest
  | [j], h, rest => by
    have hj : j.isPlain = true := (Bool.and_eq_true_iff.1 h).1
    simp only [itemChars, List.append_assoc, List.cons_append, List.nil_append]
    rw [scan?_chars hj (ends_cons rfl _), scan?_mark rfl, Option.map_map]
    simp only [itemTokens, List.append_assoc]
    rfl
  | j :: k :: later, h, rest => by
    obtain ⟨hj, hlater⟩ := Bool.and_eq_true_iff.1 h
    simp only [itemChars, List.append_assoc, List.cons_append]
    rw [scan?_chars hj (ends_cons rfl _), scan?_mark rfl, scan?_itemChars hlater, Option.map_map,
      Option.map_map]
    simp only [itemTokens, List.append_assoc]
    rfl

theorem scan?_memberChars : ∀ {members : List (String × Json)}, membersPlain members = true →
    ∀ {rest : List Char}, scan? .between (memberChars members ++ rest) =
      (scan? .between rest).map (memberTokens members ++ ·)
  | [], _, rest => scan?_mark rfl rest
  | [(k, j)], h, rest => by
    have hj : j.isPlain = true := (Bool.and_eq_true_iff.1 h).1
    simp only [memberChars, List.append_assoc, List.cons_append, List.nil_append]
    rw [scan?_stringChars, scan?_mark rfl, scan?_chars hj (ends_cons rfl _), scan?_mark rfl,
      Option.map_map, Option.map_map, Option.map_map]
    simp only [memberTokens, List.cons_append, List.append_assoc]
    rfl
  | (k, j) :: m :: later, h, rest => by
    obtain ⟨hj, hlater⟩ := Bool.and_eq_true_iff.1 h
    simp only [memberChars, List.append_assoc, List.cons_append]
    rw [scan?_stringChars, scan?_mark rfl, scan?_chars hj (ends_cons rfl _), scan?_mark rfl,
      scan?_memberChars hlater, Option.map_map, Option.map_map, Option.map_map, Option.map_map]
    simp only [memberTokens, List.cons_append, List.append_assoc]
    rfl

end

/-- The tokens of the text of a plain value. -/
theorem tokens?_write {j : Json} (h : j.isPlain = true) : tokens? j.write = some j.toTokens := by
  have hends : Ends [] := fun _ hc => absurd hc (by simp)
  have hscan := scan?_chars h hends
  rw [List.append_nil] at hscan
  unfold tokens? write
  rw [String.toList_ofList, hscan, scan?, Option.map_some, List.append_nil]

end Fleet.Json
