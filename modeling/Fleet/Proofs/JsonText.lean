import Fleet.Proofs.Reading
import Fleet.Proofs.Scanning

/-!
# JSON as text

A plain value whose containers nest no deeper than can be held is read back from its text:

    read? j.write = some j                                                       (read?_write)

Its tokens are put together on a stack of containers part way through; a value leaves the stack as it
was, and is given to the container on top (`foldlM_toTokens`). That a value is plain and nests no deeper
than `d` is `Legible d`, with a lemma for each way in which values are written. -/

namespace Fleet.Json

mutual

/-- How deep the containers of a value nest. -/
def nesting : Json → Nat
  | .arr items => itemsNesting items + 1
  | .obj members => membersNesting members + 1
  | _ => 0

def itemsNesting : List Json → Nat
  | [] => 0
  | j :: rest => max (nesting j) (itemsNesting rest)

def membersNesting : List (String × Json) → Nat
  | [] => 0
  | (_, j) :: rest => max (nesting j) (membersNesting rest)

end

theorem foldlM_step {p after : Partial} {t : Token} (h : p.read? t = some after)
    (later : List Token) :
    (t :: later).foldlM Partial.read? p = later.foldlM Partial.read? after := by
  rw [List.foldlM_cons, h]
  rfl

theorem close_of_shallow {stack : List Frame} (h : stack.length < depthLimit) (j : Json) :
    Partial.close j stack = Partial.give j stack := by
  unfold Partial.close
  rw [if_pos ((isShallow_iff stack).2 h)]

theorem read?_text (first : Bool) (done : List (Option String × Json)) (name : Option String)
    (stack : List Frame) :
    Partial.read? (.reading (.members done :: stack) (.name first)) (.text name) =
      some (.reading (.member done name :: stack) .colon) := by
  cases first <;> rfl

/-- Members as they wait on the stack, last first. -/
def waiting (members : List (String × Json)) : List (Option String × Json) :=
  (members.map fun m => (some m.1, m.2)).reverse

theorem waiting_append (members : List (String × Json)) (k : String) (j : Json) :
    waiting (members ++ [(k, j)]) = (some k, j) :: waiting members := by
  rw [waiting, List.map_append, List.reverse_append]
  rfl

theorem ofMembers_waiting (members : List (String × Json)) :
    ofMembers (waiting members).reverse = .obj members := by
  have hnames : (members.map fun m => (some m.1, m.2)).mapM
      (fun (m : Option String × Json) => m.1.map (·, m.2)) = some (members.map id) :=
    mapM_map fun _ _ => rfl
  rw [waiting, List.reverse_reverse, ofMembers, hnames, List.map_id]
  rfl

mutual

/-- The tokens of a value give the value to the container that waits for it. -/
theorem foldlM_toTokens : ∀ {j : Json}, j.isPlain = true → ∀ (stack : List Frame) (first : Bool),
    stack.length + j.nesting ≤ depthLimit → ∀ later : List Token,
    (j.toTokens ++ later).foldlM Partial.read? (.reading stack (.value first)) =
      later.foldlM Partial.read? (Partial.give j stack)
  | .null, _, _, _, _, later => foldlM_step rfl later
  | .bool _, _, _, _, _, later => foldlM_step rfl later
  | .int _, _, _, _, _, later => foldlM_step rfl later
  | .str _, _, _, _, _, later => foldlM_step rfl later
  | .arr [], _, stack, _, hdeep, later => by
    have hshallow : stack.length < depthLimit := hdeep
    refine (foldlM_step rfl _).trans ((foldlM_step rfl later).trans ?_)
    rw [close_of_shallow hshallow]
    rfl
  | .arr (j :: items), h, _, _, hdeep, later => by
    simp only [nesting] at hdeep
    exact (foldlM_step rfl _).trans (foldlM_itemTokens (List.cons_ne_nil j items) h _ [] true (by omega) later)
  | .obj [], _, stack, _, hdeep, later => by
    have hshallow : stack.length < depthLimit := hdeep
    refine (foldlM_step rfl _).trans ((foldlM_step rfl later).trans ?_)
    rw [close_of_shallow hshallow]
    rfl
  | .obj (m :: members), h, _, _, hdeep, later => by
    simp only [nesting] at hdeep
    exact (foldlM_step rfl _).trans (foldlM_memberTokens (List.cons_ne_nil m members) h _ [] true (by omega) later)
  | .real _, h, _, _, _, _ => by cases h
  | .beyond, h, _, _, _, _ => by cases h

/-- The tokens of the items of an array that is part way through give the array to the container that
waits for it. -/
theorem foldlM_itemTokens : ∀ {items : List Json}, items ≠ [] → itemsPlain items = true →
    ∀ (stack : List Frame) (done : List Json) (first : Bool),
    stack.length + (itemsNesting items + 1) ≤ depthLimit → ∀ later : List Token,
    (itemTokens items ++ later).foldlM Partial.read?
        (.reading (.items done :: stack) (.value first)) =
      later.foldlM Partial.read? (Partial.give (.arr (done.reverse ++ items)) stack)
  | [], hne, _, _, _, _, _, _ => absurd rfl hne
  | [j], _, h, stack, done, first, hdeep, later => by
    simp only [itemsPlain, Bool.and_true] at h
    simp only [itemsNesting, Nat.max_zero] at hdeep
    have hinner : (Frame.items done :: stack).length + j.nesting ≤ depthLimit := by
      rw [List.length_cons]; omega
    simp only [itemTokens, List.append_assoc, List.cons_append, List.nil_append]
    rw [foldlM_toTokens h _ first hinner, foldlM_step rfl,
      close_of_shallow (by omega : stack.length < depthLimit), List.reverse_cons]
  | j :: k :: items, _, h, stack, done, first, hdeep, later => by
    rw [itemsPlain, Bool.and_eq_true] at h
    rw [itemsNesting] at hdeep
    have hinner : (Frame.items done :: stack).length + j.nesting ≤ depthLimit := by
      rw [List.length_cons]; omega
    have hrest := foldlM_itemTokens (List.cons_ne_nil k items) h.2 stack (j :: done) false
      (by omega) later
    simp only [itemTokens, List.append_assoc, List.cons_append]
    rw [foldlM_toTokens h.1 _ first hinner, foldlM_step rfl, hrest, List.reverse_cons,
      List.append_assoc]
    rfl

/-- The tokens of the members of an object that is part way through give the object to the container
that waits for it. -/
theorem foldlM_memberTokens : ∀ {members : List (String × Json)}, members ≠ [] →
    membersPlain members = true → ∀ (stack : List Frame) (done : List (String × Json)) (first : Bool),
    stack.length + (membersNesting members + 1) ≤ depthLimit → ∀ later : List Token,
    (memberTokens members ++ later).foldlM Partial.read?
        (.reading (.members (waiting done) :: stack) (.name first)) =
      later.foldlM Partial.read? (Partial.give (.obj (done ++ members)) stack)
  | [], hne, _, _, _, _, _, _ => absurd rfl hne
  | [(k, j)], _, h, stack, done, first, hdeep, later => by
    simp only [membersPlain, Bool.and_true] at h
    simp only [membersNesting, Nat.max_zero] at hdeep
    have hinner : (Frame.member (waiting done) (some k) :: stack).length + j.nesting ≤ depthLimit := by
      rw [List.length_cons]; omega
    simp only [memberTokens, List.append_assoc, List.cons_append, List.nil_append]
    rw [foldlM_step (read?_text first _ _ stack), foldlM_step rfl, foldlM_toTokens h _ false hinner,
      foldlM_step rfl, close_of_shallow (by omega : stack.length < depthLimit), ← waiting_append,
      ofMembers_waiting]
  | (k, j) :: m :: members, _, h, stack, done, first, hdeep, later => by
    rw [membersPlain, Bool.and_eq_true] at h
    rw [membersNesting] at hdeep
    have hinner : (Frame.member (waiting done) (some k) :: stack).length + j.nesting ≤ depthLimit := by
      rw [List.length_cons]; omega
    have hrest := foldlM_memberTokens (List.cons_ne_nil m members) h.2 stack
      (done ++ [(k, j)]) false (by omega) later
    simp only [memberTokens, List.append_assoc, List.cons_append]
    rw [foldlM_step (read?_text first _ _ stack), foldlM_step rfl, foldlM_toTokens h.1 _ false hinner,
      foldlM_step rfl, ← waiting_append, hrest, List.append_assoc]
    rfl

end

/-! ## Values that are read back from their text -/

/-- Whether a value is plain and its containers nest at most `d` deep. -/
def Legible (d : Nat) (j : Json) : Prop := j.isPlain = true ∧ j.nesting ≤ d

instance (d : Nat) (j : Json) : Decidable (Legible d j) :=
  inferInstanceAs (Decidable (j.isPlain = true ∧ j.nesting ≤ d))

/-- A plain value that nests no deeper than can be held is read back from its text. -/
theorem read?_write {j : Json} (h : Legible depthLimit j) : read? j.write = some j := by
  have hparse := foldlM_toTokens h.1 [] false ((Nat.zero_add _).symm ▸ h.2) []
  rw [List.append_nil] at hparse
  unfold read? ofTokens? Partial.start
  rw [tokens?_write h.1, Option.bind_some, hparse]
  rfl

section Legible

variable {α : Type} {d : Nat} {write : α → Json}

@[simp] theorem legible_null (d : Nat) : Legible d .null := ⟨rfl, Nat.zero_le d⟩

@[simp] theorem legible_bool (d : Nat) (b : Bool) : Legible d (.bool b) := ⟨rfl, Nat.zero_le d⟩

@[simp] theorem legible_str (d : Nat) (s : String) : Legible d (.str s) := ⟨rfl, Nat.zero_le d⟩

theorem legible_ofNat {n : Nat} (h : n < UInt64.size) (d : Nat) : Legible d (ofNat n) := by
  refine ⟨?_, Nat.zero_le d⟩
  have hmin : Int64.minValue.toInt ≤ (n : Int) := Int.le_trans (by decide) (Int.natCast_nonneg n)
  have hmax : (n : Int) ≤ (significandLimit : Int) := by
    unfold significandLimit
    omega
  simp only [ofNat, isPlain, hmin, hmax, decide_true, Bool.and_self]

@[simp] theorem legible_word16 (d : Nat) (w : UInt16) : Legible d (ofNat w.toNat) :=
  legible_ofNat (Nat.lt_trans w.toNat_lt (by decide)) d

@[simp] theorem legible_word32 (d : Nat) (w : UInt32) : Legible d (ofNat w.toNat) :=
  legible_ofNat (Nat.lt_trans w.toNat_lt (by decide)) d

@[simp] theorem legible_word64 (d : Nat) (w : UInt64) : Legible d (ofNat w.toNat) :=
  legible_ofNat w.toNat_lt d

@[simp] theorem legible_arr {items : List Json} :
    Legible (d + 1) (.arr items) ↔ ∀ j ∈ items, Legible d j := by
  have hitems : itemsPlain items = true ∧ itemsNesting items ≤ d ↔ ∀ j ∈ items, Legible d j := by
    induction items with
    | nil => simp [itemsPlain, itemsNesting]
    | cons j rest ih =>
      rw [List.forall_mem_cons, ← ih, itemsPlain, itemsNesting, Bool.and_eq_true_iff, Nat.max_le]
      exact and_and_and_comm
  rw [← hitems, Legible, isPlain, nesting, Nat.add_le_add_iff_right]

@[simp] theorem legible_obj {members : List (String × Json)} :
    Legible (d + 1) (.obj members) ↔ ∀ m ∈ members, Legible d m.2 := by
  have hmembers : membersPlain members = true ∧ membersNesting members ≤ d ↔
      ∀ m ∈ members, Legible d m.2 := by
    induction members with
    | nil => simp [membersPlain, membersNesting]
    | cons m rest ih =>
      rw [List.forall_mem_cons, ← ih, membersPlain, membersNesting, Bool.and_eq_true_iff, Nat.max_le]
      exact and_and_and_comm
  rw [← hmembers, Legible, isPlain, nesting, Nat.add_le_add_iff_right]

@[simp] theorem legible_ofItems {items : List α} :
    Legible (d + 1) (ofItems write items) ↔ ∀ a ∈ items, Legible d (write a) := by
  rw [ofItems, legible_arr, List.forall_mem_map]

@[simp] theorem legible_ofDict {entries : Dict String α} :
    Legible (d + 1) (ofDict write entries) ↔ ∀ e ∈ entries.entries, Legible d (write e.2) := by
  rw [ofDict, legible_obj, List.forall_mem_map]

@[simp] theorem legible_orNull {o : Option α} :
    Legible d (orNull write o) ↔ ∀ a, o = some a → Legible d (write a) := by
  cases o with
  | none => simp [orNull]
  | some a => simp [orNull]

/-- A record is legible one level above its columns. -/
theorem legible_members {columns : List (Column α)} {x : α}
    (h : ∀ c ∈ columns, Legible d (c.write x)) : Legible (d + 1) (.obj (members columns x)) := by
  refine legible_obj.2 fun m hm => ?_
  obtain ⟨c, hc, hm⟩ := List.mem_flatMap.1 hm
  unfold Column.members at hm
  split at hm
  · cases hm
  · obtain rfl := List.mem_singleton.1 hm
    exact h c hc

end Legible

end Fleet.Json
