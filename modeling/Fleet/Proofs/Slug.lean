import Fleet.Proofs.Characters
import Mathlib.Data.List.Chain

/-!
# A slug is its runs

A run is maximal if no letter or digit stands just before it or just behind it (`IsRun`). The runs of a
text are found from left to right, each with its place, and the words of a text are its runs:

    (place, run) ∈ runsFrom start text ↔ ∃ k, place = start + k ∧ IsRun text k run      (mem_runsFrom)
    words text = (runsFrom start text).map fun r => r.2.map Char.toLower                 (words_eq)

Words joined by dashes are taken apart again by `words` (`words_joined`), so a slug is its own slug and
tells the runs of its name. A writer that goes over the name once, and remembers only whether it has left
something out since it last wrote, writes the slug (`pass_start`). -/

namespace Fleet.Text

/-! ## Words -/

/-- A letter or digit begins a word, which goes on as long as letters and digits follow. -/
theorem words_of_word {c : Char} (hc : isWordChar c = true) (rest : List Char) :
    words (c :: rest) =
      (c :: rest.takeWhile isWordChar).map Char.toLower :: words (rest.dropWhile isWordChar) := by
  induction rest generalizing c with
  | nil => simp [words, hc]
  | cons next rest ih =>
    rw [words.eq_def (c :: next :: rest)]
    simp only [hc, if_true]
    by_cases hnext : isWordChar next = true
    · rw [ih hnext, List.takeWhile_cons_of_pos hnext, List.dropWhile_cons_of_pos hnext]
      simp only [hnext, if_true, List.map_cons]
    · rw [List.takeWhile_cons_of_neg hnext, List.dropWhile_cons_of_neg hnext]
      cases words (next :: rest) with
      | nil => rfl
      | cons w ws =>
        simp only [hnext]
        rfl

theorem words_of_other {c : Char} (hc : isWordChar c = false) (rest : List Char) :
    words (c :: rest) = words rest := by
  rw [words.eq_def]
  simp only [hc, Bool.false_eq_true, if_false]

theorem words_eq_nil_iff {text : List Char} : words text = [] ↔ ∀ c ∈ text, ¬ IsLetterOrDigit c := by
  induction text with
  | nil => exact iff_of_true rfl nofun
  | cons c rest ih =>
    rw [List.forall_mem_cons, ← ih]
    by_cases hc : isWordChar c = true
    · rw [words_of_word hc]
      exact iff_of_false (List.cons_ne_nil _ _) fun h => h.1 (isWordChar_iff.1 hc)
    · have hother : isWordChar c = false := Bool.eq_false_iff.2 hc
      rw [words_of_other hother]
      exact (and_iff_right (not_isWordChar_iff.1 hother)).symm

/-! ## Maximal runs -/

def WordAt (text : List Char) (place : Nat) : Prop := ∃ c, text[place]? = some c ∧ IsLetterOrDigit c

/-- A maximal run of a text: letters and digits that stand at a place, with none just before them and
none just behind them. -/
structure IsRun (text : List Char) (place : Nat) (run : List Char) : Prop where
  ne_nil : run ≠ []
  stands : (text.drop place).take run.length = run
  all : ∀ c ∈ run, IsLetterOrDigit c
  opens : ∀ before, before + 1 = place → ¬ WordAt text before
  closes : ¬ WordAt text (place + run.length)

section

variable {text front rest run : List Char} {place k : Nat}

theorem IsRun.wordAt (h : IsRun text place run) (hk : k < run.length) : WordAt text (place + k) := by
  refine ⟨run[k], ?_, h.all _ (List.getElem_mem hk)⟩
  have hget : ((text.drop place).take run.length)[k]? = some run[k] := by
    rw [h.stands, List.getElem?_eq_getElem hk]
  rw [List.getElem?_take, if_pos hk, List.getElem?_drop] at hget
  exact hget

theorem IsRun.length_pos (h : IsRun text place run) : 0 < run.length :=
  List.length_pos_iff.2 h.ne_nil

theorem wordAt_append_right : WordAt (front ++ rest) (front.length + k) ↔ WordAt rest k := by
  unfold WordAt
  rw [List.getElem?_append_right (Nat.le_add_right _ _), Nat.add_sub_cancel_left]

theorem wordAt_append_left (hk : k < front.length) : WordAt (front ++ rest) k ↔ WordAt front k := by
  unfold WordAt
  rw [List.getElem?_append_left hk]

/-- Where no run crosses the end of a front, the runs behind it are those of the rest. -/
theorem isRun_append_right
    (hend : (∀ last, last + 1 = front.length → ¬ WordAt front last) ∨ ¬ WordAt rest 0) :
    IsRun (front ++ rest) (front.length + k) run ↔ IsRun rest k run := by
  have hdrop : (front ++ rest).drop (front.length + k) = rest.drop k := by
    rw [← List.drop_drop, List.drop_left]
  constructor
  · intro h
    refine ⟨h.ne_nil, hdrop ▸ h.stands, h.all, fun before hbefore hword => ?_, fun hword => ?_⟩
    · exact h.opens (front.length + before) (by omega) (wordAt_append_right.2 hword)
    · apply h.closes
      rw [Nat.add_assoc]
      exact wordAt_append_right.2 hword
  · intro h
    refine ⟨h.ne_nil, hdrop.symm ▸ h.stands, h.all, fun before hbefore hword => ?_, fun hword => ?_⟩
    · by_cases hk : k = 0
      · subst hk
        have hlast : before < front.length := by omega
        rcases hend with hend | hend
        · exact hend before hbefore ((wordAt_append_left hlast).1 hword)
        · exact hend (h.wordAt h.length_pos)
      · have hplace : before = front.length + (k - 1) := by omega
        rw [hplace, wordAt_append_right] at hword
        exact h.opens (k - 1) (by omega) hword
    · apply h.closes
      rw [Nat.add_assoc] at hword
      exact wordAt_append_right.1 hword

/-- Behind a character that is no letter or digit, the runs are those of the rest. -/
theorem isRun_cons_of_other {c : Char} (hc : ¬ IsLetterOrDigit c) :
    IsRun (c :: rest) place run ↔ ∃ k, place = k + 1 ∧ IsRun rest k run := by
  have hfront : ¬ WordAt [c] 0 := by
    rintro ⟨d, hd, hword⟩
    cases hd
    exact hc hword
  have hshift : ∀ k, IsRun (c :: rest) (k + 1) run ↔ IsRun rest k run := by
    intro k
    rw [Nat.add_comm k 1]
    refine @isRun_append_right [c] rest run k (.inl fun last hlast => ?_)
    have hzero : last = 0 := Nat.succ.inj hlast
    rw [hzero]
    exact hfront
  constructor
  · intro h
    cases place with
    | zero =>
      have hword := h.wordAt h.length_pos
      exact absurd ((@wordAt_append_left [c] rest 0 Nat.one_pos).1 hword) hfront
    | succ k => exact ⟨k, rfl, (hshift k).1 h⟩
  · rintro ⟨k, rfl, h⟩
    exact (hshift k).2 h

/-- A text that begins with letters and digits as far as they go has them as its first run. -/
theorem isRun_append_of_run (hne : front ≠ []) (hall : ∀ c ∈ front, IsLetterOrDigit c)
    (hrest : ¬ WordAt rest 0) :
    IsRun (front ++ rest) place run ↔
      (place = 0 ∧ run = front) ∨ ∃ k, place = front.length + k ∧ IsRun rest k run := by
  have hfront : ∀ k, k < front.length → WordAt (front ++ rest) k := by
    intro k hk
    exact (wordAt_append_left hk).2
      ⟨front[k], List.getElem?_eq_getElem hk, hall _ (List.getElem_mem hk)⟩
  have hstop : ¬ WordAt (front ++ rest) front.length := fun hword =>
    hrest (wordAt_append_right.1 hword)
  have hshift : ∀ k, IsRun (front ++ rest) (front.length + k) run ↔ IsRun rest k run := fun k =>
    isRun_append_right (.inr hrest)
  constructor
  · intro h
    by_cases hplace : place < front.length
    · left
      have hzero : place = 0 := by
        by_contra hpos
        exact h.opens (place - 1) (by omega) (hfront _ (by omega))
      subst hzero
      -- A run that ends earlier could go on, and one that ends later would pass the end of the front.
      have hlength : run.length = front.length := by
        rcases Nat.lt_trichotomy run.length front.length with hlt | heq | hgt
        · refine absurd (hfront _ hlt) ?_
          have hcloses := h.closes
          rwa [Nat.zero_add] at hcloses
        · exact heq
        · have hword := h.wordAt hgt
          rw [Nat.zero_add] at hword
          exact absurd hword hstop
      refine ⟨rfl, ?_⟩
      have hstands := h.stands
      rw [List.drop_zero, hlength, List.take_left] at hstands
      exact hstands.symm
    · obtain ⟨k, rfl⟩ := Nat.exists_eq_add_of_le (Nat.le_of_not_lt hplace)
      exact .inr ⟨k, rfl, (hshift k).1 h⟩
  · rintro (⟨rfl, rfl⟩ | ⟨k, rfl, h⟩)
    · refine ⟨hne, by rw [List.drop_zero, List.take_left], hall, fun before hbefore => ?_, ?_⟩
      · omega
      · rw [Nat.zero_add]
        exact hstop
    · exact (hshift k).2 h

end

/-- The maximal runs of a text of which the first character has a place, each with its own place. -/
def runsFrom (place : Nat) : List Char → List (Nat × List Char)
  | [] => []
  | c :: rest =>
    if isWordChar c then
      (place, c :: rest.takeWhile isWordChar) ::
        runsFrom (place + (rest.takeWhile isWordChar).length + 1) (rest.dropWhile isWordChar)
    else runsFrom (place + 1) rest
termination_by text => text.length
decreasing_by
  · exact Nat.lt_succ_of_le (List.dropWhile_sublist _).length_le
  · exact Nat.lt_succ_self _

theorem mem_runsFrom {start place : Nat} {text run : List Char} :
    (place, run) ∈ runsFrom start text ↔ ∃ k, place = start + k ∧ IsRun text k run := by
  induction start, text using runsFrom.induct with
  | case1 start =>
    rw [runsFrom]
    refine iff_of_false (List.not_mem_nil) ?_
    rintro ⟨k, -, h⟩
    obtain ⟨c, hc, -⟩ := h.wordAt h.length_pos
    cases hc
  | case2 start c rest hc ih =>
    have hall : ∀ d ∈ c :: rest.takeWhile isWordChar, IsLetterOrDigit d := by
      intro d hd
      rcases List.mem_cons.1 hd with rfl | hd
      · exact isWordChar_iff.1 hc
      · exact isWordChar_iff.1 (List.all_eq_true.1 List.all_takeWhile d hd)
    have hrest : ¬ WordAt (rest.dropWhile isWordChar) 0 := by
      rintro ⟨d, hd, hword⟩
      have hhead := List.head?_dropWhile_not isWordChar rest
      rw [List.head?_eq_getElem?, hd] at hhead
      exact not_isWordChar_iff.1 hhead hword
    have hsplit : c :: rest = (c :: rest.takeWhile isWordChar) ++ rest.dropWhile isWordChar := by
      rw [List.cons_append, List.takeWhile_append_dropWhile]
    rw [runsFrom, if_pos hc, List.mem_cons, ih, hsplit]
    simp only [isRun_append_of_run (List.cons_ne_nil _ _) hall hrest, Prod.mk.injEq, List.length_cons]
    constructor
    · rintro (⟨rfl, rfl⟩ | ⟨k, rfl, h⟩)
      · exact ⟨0, rfl, .inl ⟨rfl, rfl⟩⟩
      · exact ⟨_, by omega, .inr ⟨k, rfl, h⟩⟩
    · rintro ⟨k, rfl, ⟨rfl, rfl⟩ | ⟨j, rfl, h⟩⟩
      · exact .inl ⟨rfl, rfl⟩
      · exact .inr ⟨j, by omega, h⟩
  | case3 start c rest hc ih =>
    have hother : ¬ IsLetterOrDigit c := fun hword => hc (isWordChar_iff.2 hword)
    rw [runsFrom, if_neg hc, ih]
    simp only [isRun_cons_of_other hother]
    constructor
    · rintro ⟨k, rfl, h⟩
      exact ⟨k + 1, by omega, k, rfl, h⟩
    · rintro ⟨_, rfl, k, rfl, h⟩
      exact ⟨k, by omega, h⟩

/-- The runs come in the order of their places. -/
theorem runsFrom_ascending (start : Nat) (text : List Char) :
    (runsFrom start text).Pairwise fun a b => a.1 < b.1 := by
  induction start, text using runsFrom.induct with
  | case1 start =>
    rw [runsFrom]
    exact List.Pairwise.nil
  | case2 start c rest hc ih =>
    rw [runsFrom, if_pos hc]
    refine List.pairwise_cons.2 ⟨fun ⟨place, run⟩ hr => ?_, ih⟩
    obtain ⟨k, rfl, -⟩ := mem_runsFrom.1 hr
    show start < _
    omega
  | case3 start c rest hc ih =>
    rw [runsFrom, if_neg hc]
    exact ih

/-- The words of a text are its runs in small letters. -/
theorem words_eq (start : Nat) (text : List Char) :
    words text = (runsFrom start text).map fun r => r.2.map Char.toLower := by
  induction start, text using runsFrom.induct with
  | case1 start =>
    rw [runsFrom]
    rfl
  | case2 start c rest hc ih =>
    rw [runsFrom, if_pos hc, words_of_word hc, ih]
    rfl
  | case3 start c rest hc ih =>
    rw [runsFrom, if_neg hc, words_of_other (Bool.eq_false_iff.2 hc), ih]

/-! ## Words joined by dashes -/

/-- Words with a dash between each two. -/
def joined (ws : List (List Char)) : List Char := List.intercalate ['-'] ws

/-- Words with a dash in front of each. -/
def dashed (ws : List (List Char)) : List Char := ws.flatMap ('-' :: ·)

/-- Words of small letters and digits. -/
def ArePlain (ws : List (List Char)) : Prop := ∀ w ∈ ws, w ≠ [] ∧ ∀ c ∈ w, IsPlain c

theorem joined_cons (w : List Char) (ws : List (List Char)) : joined (w :: ws) = w ++ dashed ws := by
  unfold joined
  induction ws generalizing w with
  | nil => simp [dashed]
  | cons next ws ih =>
    rw [List.intercalate_cons_cons, ih next]
    simp [dashed]

theorem arePlain_words (text : List Char) : ArePlain (words text) := by
  intro w hw
  rw [words_eq 0] at hw
  obtain ⟨⟨place, run⟩, hr, rfl⟩ := List.mem_map.1 hw
  obtain ⟨k, -, hrun⟩ := mem_runsFrom.1 hr
  refine ⟨fun hnil => hrun.ne_nil (List.map_eq_nil_iff.1 hnil), fun c hc => ?_⟩
  obtain ⟨d, hd, rfl⟩ := List.mem_map.1 hc
  exact isPlain_toLower (hrun.all d hd)

/-- Words that are joined are the words of what they are joined to. -/
theorem words_joined {ws : List (List Char)} (h : ArePlain ws) : words (joined ws) = ws := by
  induction ws with
  | nil => rfl
  | cons w ws ih =>
    obtain ⟨⟨hne, hplain⟩, hrest⟩ := List.forall_mem_cons.1 h
    obtain ⟨c, w, rfl⟩ := List.exists_cons_of_ne_nil hne
    have hword : ∀ d ∈ c :: w, isWordChar d = true := fun d hd =>
      isWordChar_iff.2 (hplain d hd).isLetterOrDigit
    have hlower : (c :: w).map Char.toLower = c :: w := by
      refine (List.map_congr_left fun d hd => ?_).trans (List.map_id _)
      exact (hplain d hd).toLower_eq
    have hdash : isWordChar '-' = false := rfl
    have htake : (dashed ws).takeWhile isWordChar = [] ∧
        words ((dashed ws).dropWhile isWordChar) = ws := by
      cases ws with
      | nil => exact ⟨rfl, rfl⟩
      | cons next ws =>
        have hhead : dashed (next :: ws) = '-' :: joined (next :: ws) := by
          rw [joined_cons]
          simp [dashed]
        have hnot : ¬ isWordChar '-' = true := by simp [hdash]
        rw [hhead, List.takeWhile_cons_of_neg hnot, List.dropWhile_cons_of_neg hnot,
          words_of_other hdash, ih hrest]
        exact ⟨rfl, rfl⟩
    have htail : ∀ d ∈ w, isWordChar d = true := fun d hd => hword d (.tail _ hd)
    rw [joined_cons, List.cons_append, words_of_word (hword c (.head _)),
      List.takeWhile_append_of_pos htail, List.dropWhile_append_of_pos htail, htake.1, htake.2,
      List.append_nil, hlower]

theorem joined_inj {ws vs : List (List Char)} (hws : ArePlain ws) (hvs : ArePlain vs)
    (h : joined ws = joined vs) : ws = vs := by
  rw [← words_joined hws, h, words_joined hvs]

theorem mem_joined {ws : List (List Char)} (h : ArePlain ws) {c : Char} (hc : c ∈ joined ws) :
    IsPlain c ∨ c = '-' := by
  cases ws with
  | nil => cases hc
  | cons w ws =>
    rw [joined_cons, List.mem_append] at hc
    rcases hc with hc | hc
    · exact .inl ((h w (.head _)).2 c hc)
    · obtain ⟨v, hv, hc⟩ := List.mem_flatMap.1 hc
      rcases List.mem_cons.1 hc with rfl | hc
      · exact .inr rfl
      · exact .inl ((h v (.tail _ hv)).2 c hc)

/-- Between a dash before and a dash behind it, a word keeps the dashes apart. -/
theorem isChain_word {w : List Char} (hne : w ≠ []) (hplain : ∀ c ∈ w, IsPlain c) (a : Char) :
    (a :: (w ++ ['-'])).IsChain fun a b => a ≠ '-' ∨ b ≠ '-' := by
  induction w generalizing a with
  | nil => exact absurd rfl hne
  | cons c w ih =>
    have hc := (hplain c (.head _)).ne_dash
    refine .cons_cons (.inr hc) ?_
    by_cases hw : w = []
    · subst hw
      exact .cons_cons (.inl hc) (.singleton _)
    · exact ih hw (fun d hd => hplain d (.tail _ hd)) c

theorem isChain_joined {ws : List (List Char)} (h : ArePlain ws) (hne : ws ≠ []) :
    ('-' :: (joined ws ++ ['-'])).IsChain fun a b => a ≠ '-' ∨ b ≠ '-' := by
  induction ws with
  | nil => exact absurd rfl hne
  | cons w ws ih =>
    obtain ⟨⟨hw, hplain⟩, hrest⟩ := List.forall_mem_cons.1 h
    cases ws with
    | nil =>
      rw [joined_cons, dashed, List.flatMap_nil, List.append_nil]
      exact isChain_word hw hplain '-'
    | cons next ws =>
      have hsplit : joined (w :: next :: ws) = w ++ '-' :: joined (next :: ws) := by
        rw [joined_cons, joined_cons]
        simp [dashed]
      rw [hsplit, List.append_assoc, List.cons_append]
      exact List.isChain_cons_split.2
        ⟨isChain_word hw hplain '-', ih hrest (List.cons_ne_nil _ _)⟩

/-- No dash stands at either end or beside another. -/
theorem dashes_joined {ws : List (List Char)} (h : ArePlain ws) :
    (joined ws).head? ≠ some '-' ∧ (joined ws).getLast? ≠ some '-' ∧ ¬ ['-', '-'] <:+: joined ws := by
  by_cases hne : ws = []
  · subst hne
    refine ⟨nofun, nofun, fun hpart => ?_⟩
    cases List.infix_nil.1 hpart
  · have hapart : ¬ ['-', '-'] <:+: '-' :: (joined ws ++ ['-']) := by
      intro hpart
      have hpair := List.IsChain.infix (isChain_joined h hne) hpart
      rcases List.isChain_pair.1 hpair with hdash | hdash
      · exact hdash rfl
      · exact hdash rfl
    refine ⟨fun hhead => hapart ?_, fun hlast => hapart ?_, fun hpart => hapart ?_⟩
    · obtain ⟨rest, hrest⟩ := List.head?_eq_some_iff.1 hhead
      rw [hrest]
      exact ⟨[], rest ++ ['-'], rfl⟩
    · obtain ⟨front, hfront⟩ := List.getLast?_eq_some_iff.1 hlast
      rw [hfront]
      exact ⟨'-' :: front, [], by simp⟩
    · exact hpart.trans ⟨['-'], ['-'], rfl⟩

/-! ## One pass over a name -/

/-- What is written in one pass over a text, after what has been written before: the letters and digits, made
small, with a dash before one if something was left out since the last. -/
def pass (written : List Char) (skipped : Bool) : List Char → List Char
  | [] => written
  | c :: rest =>
    if isWordChar c then
      pass ((if skipped && !written.isEmpty then written ++ ['-'] else written) ++ [c.toLower]) false rest
    else pass written true rest

/-- Once something is written, the word that has begun goes on if nothing was left out, and each further
word has a dash in front. -/
theorem pass_eq {written : List Char} (hne : written ≠ []) (text : List Char) :
    pass written true text = written ++ dashed (words text) ∧
      pass written false text = written ++ (text.takeWhile isWordChar).map Char.toLower ++
        dashed (words (text.dropWhile isWordChar)) := by
  induction text generalizing written with
  | nil => simp [pass, words, dashed]
  | cons c rest ih =>
    have hempty : written.isEmpty = false := List.isEmpty_eq_false_iff.2 hne
    by_cases hc : isWordChar c = true
    · have hafter := fun front : List Char =>
        (@ih (front ++ [c.toLower]) (List.append_ne_nil_of_right_ne_nil _ (by simp))).2
      unfold pass
      simp only [if_pos hc, hempty, Bool.not_false, Bool.and_true, if_true, Bool.false_eq_true, if_false,
        hafter, words_of_word hc, List.takeWhile_cons_of_pos hc, List.dropWhile_cons_of_pos hc]
      simp [dashed]
    · unfold pass
      simp only [if_neg hc, (ih hne).1, words_of_other (Bool.eq_false_iff.2 hc),
        List.takeWhile_cons_of_neg hc, List.dropWhile_cons_of_neg hc]
      simp

/-- A pass that begins with nothing written writes the words joined by dashes. -/
theorem pass_start (skipped : Bool) (text : List Char) :
    pass [] skipped text = joined (words text) := by
  induction text generalizing skipped with
  | nil => rfl
  | cons c rest ih =>
    unfold pass
    by_cases hc : isWordChar c = true
    · simp only [if_pos hc, List.isEmpty_nil, Bool.not_true, Bool.and_false, Bool.false_eq_true,
        if_false, List.nil_append]
      rw [(pass_eq (List.cons_ne_nil _ _) rest).2, words_of_word hc, joined_cons]
      rfl
    · rw [if_neg hc, ih true, words_of_other (Bool.eq_false_iff.2 hc)]

/-! ## Slugs -/

/-- The maximal runs of a name, from left to right, each with its place. -/
def runs (name : String) : List (Nat × List Char) := runsFrom 0 name.toList

/-- The maximal runs of a name in small letters. -/
def smallRuns (name : String) : List (List Char) := (runs name).map fun r => r.2.map Char.toLower

theorem toList_slug_eq (name : String) : (slug name).toList = joined (smallRuns name) := by
  rw [toList_slug, words_eq 0]
  rfl

theorem arePlain_smallRuns (name : String) : ArePlain (smallRuns name) := by
  have hwords : smallRuns name = words name.toList := (words_eq 0 name.toList).symm
  rw [hwords]
  exact arePlain_words name.toList

theorem smallRuns_slug (name : String) : smallRuns (slug name) = smallRuns name := by
  have hwords : smallRuns (slug name) = words (slug name).toList := (words_eq 0 _).symm
  rw [hwords, toList_slug_eq, words_joined (arePlain_smallRuns name)]

theorem slug_eq_empty_iff (name : String) :
    slug name = "" ↔ ∀ c ∈ name.toList, ¬ IsLetterOrDigit c := by
  rw [← String.toList_inj, toList_slug, ← words_eq_nil_iff]
  constructor
  · exact @joined_inj _ [] (arePlain_words name.toList) nofun
  · intro h
    rw [h]
    rfl

/-- The runs that are listed for a name are all its maximal runs, in their order, and its slug is these
runs in small letters, joined by dashes, as one pass over the name writes it. So a slug has only small
letters, digits and dashes, no dash at an end or beside another, and nothing at all exactly if the name has
no letter or digit; it is its own slug, and two names have one slug exactly if they have the same runs in
small letters. -/
theorem slug_joins_runs :
    (∀ name : String,
      (∀ place run, (place, run) ∈ runs name ↔ IsRun name.toList place run) ∧
      ((runs name).Pairwise fun a b => a.1 < b.1) ∧
      (slug name).toList = List.intercalate ['-'] (smallRuns name) ∧
      slug name = String.ofList (pass [] false name.toList) ∧
      (∀ c ∈ (slug name).toList, ('a' ≤ c ∧ c ≤ 'z') ∨ ('0' ≤ c ∧ c ≤ '9') ∨ c = '-') ∧
      (slug name).toList.head? ≠ some '-' ∧ (slug name).toList.getLast? ≠ some '-' ∧
      ¬ ['-', '-'] <:+: (slug name).toList ∧
      (slug name = "" ↔ ∀ c ∈ name.toList, ¬ IsLetterOrDigit c) ∧
      slug (slug name) = slug name) ∧
    ∀ name other, slug name = slug other ↔ smallRuns name = smallRuns other := by
  have heq : ∀ name other, slug name = slug other ↔ smallRuns name = smallRuns other := by
    intro name other
    rw [← String.toList_inj, toList_slug_eq, toList_slug_eq]
    constructor
    · exact joined_inj (arePlain_smallRuns name) (arePlain_smallRuns other)
    · intro h
      rw [h]
  refine ⟨fun name => ?_, heq⟩
  obtain ⟨hhead, hlast, hpair⟩ := dashes_joined (arePlain_smallRuns name)
  rw [← toList_slug_eq] at hhead hlast hpair
  refine ⟨fun place run => ?_, runsFrom_ascending 0 _, toList_slug_eq name, ?_, fun c hc => ?_, hhead,
    hlast, hpair, slug_eq_empty_iff name, ?_⟩
  · unfold runs
    rw [mem_runsFrom]
    simp only [Nat.zero_add]
    exact ⟨fun ⟨_, hk, h⟩ => hk ▸ h, fun h => ⟨place, rfl, h⟩⟩
  · rw [pass_start]
    rfl
  · rw [toList_slug_eq] at hc
    exact or_assoc.1 (mem_joined (arePlain_smallRuns name) hc)
  · exact (heq _ _).2 (smallRuns_slug name)

-- Letters outside ASCII separate as spaces and dashes do.
example : slug "  --My_Wéb 2 -- " = "my-w-b-2" := by decide

end Fleet.Text
