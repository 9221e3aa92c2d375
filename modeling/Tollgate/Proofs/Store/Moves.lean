import Tollgate.Proofs.Store.Counters

/-!
# Exact moves of the counters

`Store.moved` adds an amount to every counter at once, without regard to the
range of words, and leaves all else as it is. Within the range a posting is
such a move (`post_eq_moved`), and moves add up (`moved_moved`), so that the
order of postings does not matter.
-/

namespace Tollgate

abbrev Amounts := Counter → Int → Int

def Amounts.single (c : Counter) (i d : Int) : Amounts := fun c' i' =>
  if c' = c ∧ i' = i then d else 0

namespace Cell

/-- The cell with an amount added to its integer; a double has none. -/
def moved : Cell → Int → Cell
  | .int n, d => .int (n + d)
  | .real x, _ => .real x

def Takes : Cell → Int → Prop
  | .int n, d => Word.Fits (n + d)
  | .real _, _ => False

instance : (c : Cell) → (d : Int) → Decidable (c.Takes d)
  | .int n, d => inferInstanceAs (Decidable (Word.Fits (n + d)))
  | .real _, _ => inferInstanceAs (Decidable False)

@[simp] theorem moved_zero (c : Cell) : c.moved 0 = c := by
  cases c with
  | int n => exact congrArg Cell.int (Int.add_zero n)
  | real x => rfl

@[simp] theorem moved_moved (c : Cell) (d e : Int) : (c.moved d).moved e = c.moved (d + e) := by
  cases c with
  | int n => exact congrArg Cell.int (Int.add_assoc n d e)
  | real x => rfl

theorem int?_moved (c : Cell) (d : Int) : (c.moved d).int? = c.int?.map (· + d) := by
  cases c <;> rfl

theorem Takes.add_eq {c : Cell} (h : c.Takes d) : c.add d = c.moved d := by
  cases c with
  | int n => exact add_int h
  | real x => exact h.elim

theorem Takes.moved {c : Cell} (h : c.Takes (d + e)) : (c.moved d).Takes e := by
  cases c with
  | int n => exact (Int.add_assoc n d e ▸ h : Word.Fits (n + d + e))
  | real x => exact h.elim

theorem Takes.sub_eq {c : Cell} (h : c.Takes (-d)) : c.sub d = c.moved (-d) := by
  cases c with
  | int n => exact (sub_int (Int.sub_eq_add_neg ▸ h)).trans (congrArg Cell.int Int.sub_eq_add_neg)
  | real x => exact h.elim

end Cell

-- ---------------------------------------------------------------------------
-- Rows
-- ---------------------------------------------------------------------------

def UserRow.moved (r : UserRow) (a : Amounts) : UserRow :=
  { r with
    quota := r.quota.moved (a .userQuota r.id)
    usedQuota := r.usedQuota.moved (a .usedQuota r.id)
    requestCount := r.requestCount.moved (a .requestCount r.id) }

/-- What a token's allowance gains its usage loses. -/
def TokenRow.moved (r : TokenRow) (a : Amounts) : TokenRow :=
  { r with
    remainQuota := r.remainQuota.moved (a .tokenQuota r.id)
    usedQuota := r.usedQuota.moved (-a .tokenQuota r.id) }

def ChannelRow.moved (r : ChannelRow) (a : Amounts) : ChannelRow :=
  { r with usedQuota := r.usedQuota.moved (a .channelUsedQuota r.id) }

namespace Store

variable {s : Store} {c c' : Counter} {i i' d d' : Int} {a b : Amounts}

def moved (s : Store) (a : Amounts) : Store :=
  { s with
    users := { s.users with rows := s.users.rows.map (·.moved a) }
    tokens := { s.tokens with rows := s.tokens.rows.map (·.moved a) }
    channels := { s.channels with rows := s.channels.rows.map (·.moved a) } }

theorem moved_zero (h : ∀ c i, a c i = 0) : s.moved a = s := by
  have hu : (fun r : UserRow => r.moved a) = id := by funext r; simp [UserRow.moved, h]
  have ht : (fun r : TokenRow => r.moved a) = id := by funext r; simp [TokenRow.moved, h]
  have hc : (fun r : ChannelRow => r.moved a) = id := by funext r; simp [ChannelRow.moved, h]
  simp [moved, hu, ht, hc]

theorem moved_moved (s : Store) (a b : Amounts) :
    (s.moved a).moved b = s.moved fun c i => a c i + b c i := by
  have hu (r : UserRow) : (r.moved a).moved b = r.moved fun c i => a c i + b c i := by
    simp [UserRow.moved]
  have ht (r : TokenRow) : (r.moved a).moved b = r.moved fun c i => a c i + b c i := by
    simp only [TokenRow.moved, Cell.moved_moved, Int.neg_add]
  have hc (r : ChannelRow) : (r.moved a).moved b = r.moved fun c i => a c i + b c i := by
    simp [ChannelRow.moved]
  simp [moved, hu, ht, hc, Function.comp_def]

theorem moved_congr (h : ∀ c i, a c i = b c i) : s.moved a = s.moved b :=
  congrArg s.moved (funext fun c => funext fun i => h c i)

-- ---------------------------------------------------------------------------
-- Postings as moves
-- ---------------------------------------------------------------------------

def Takes (s : Store) (c : Counter) (i d : Int) : Prop :=
  match c with
  | .userQuota => ∀ r ∈ s.users.rows, r.id = i → r.quota.Takes d
  | .usedQuota => ∀ r ∈ s.users.rows, r.id = i → r.usedQuota.Takes d
  | .requestCount => ∀ r ∈ s.users.rows, r.id = i → r.requestCount.Takes d
  | .tokenQuota => ∀ r ∈ s.tokens.rows, r.id = i → r.remainQuota.Takes d ∧ r.usedQuota.Takes (-d)
  | .channelUsedQuota => ∀ r ∈ s.channels.rows, r.id = i → r.usedQuota.Takes d

instance (s : Store) (c : Counter) (i d : Int) : Decidable (s.Takes c i d) :=
  match c with
  | .userQuota | .usedQuota | .requestCount | .tokenQuota | .channelUsedQuota =>
    inferInstanceAs (Decidable (∀ _ ∈ _, _ → _))

theorem moved_users (ht : ∀ i, a .tokenQuota i = 0) (hc : ∀ i, a .channelUsedQuota i = 0) :
    s.moved a = { s with users := { s.users with rows := s.users.rows.map (·.moved a) } } := by
  have ht (r : TokenRow) : r.moved a = r := by simp [TokenRow.moved, ht]
  have hc (r : ChannelRow) : r.moved a = r := by simp [ChannelRow.moved, hc]
  simp [moved, ht, hc]

theorem moved_tokens (hu : ∀ c i, c ≠ .tokenQuota → a c i = 0) :
    s.moved a = { s with tokens := { s.tokens with rows := s.tokens.rows.map (·.moved a) } } := by
  have hc (r : ChannelRow) : r.moved a = r := by simp [ChannelRow.moved, hu]
  have hu (r : UserRow) : r.moved a = r := by simp [UserRow.moved, hu]
  simp [moved, hu, hc]

theorem moved_channels (hu : ∀ c i, c ≠ .channelUsedQuota → a c i = 0) :
    s.moved a =
      { s with channels := { s.channels with rows := s.channels.rows.map (·.moved a) } } := by
  have ht (r : TokenRow) : r.moved a = r := by simp [TokenRow.moved, hu]
  have hu (r : UserRow) : r.moved a = r := by simp [UserRow.moved, hu]
  simp [moved, hu, ht]

theorem rows_update (key : ρ → Int) (f g : ρ → ρ) {t : Numbered ρ}
    (hown : ∀ r ∈ t.rows, key r = i → f r = g r) (hother : ∀ r, key r ≠ i → g r = r) :
    t.update (fun r => decide (key r = i)) f = { t with rows := t.rows.map g } := by
  rw [Numbered.update]
  refine congrArg (Numbered.mk · t.lastId) (List.map_congr_left fun r hr => ?_)
  by_cases h : key r = i
  · rw [if_pos (decide_eq_true h), hown r hr h]
  · rw [if_neg (by simpa using h), hother r h]

theorem post_eq_moved (h : s.Takes c i d) : s.post c i d = s.moved (.single c i d) := by
  cases c with
  | userQuota | usedQuota | requestCount =>
    rw [moved_users (by simp [Amounts.single]) (by simp [Amounts.single]), post,
      rows_update UserRow.id _ (·.moved (.single _ i d))]
    · intro r hr hi
      simp [UserRow.moved, Amounts.single, hi, (h r hr hi).add_eq]
    · intro r hi
      simp [UserRow.moved, Amounts.single, hi]
  | tokenQuota =>
    rw [moved_tokens (by simp +contextual [Amounts.single]), post,
      rows_update TokenRow.id _ (·.moved (.single _ i d))]
    · intro r hr hi
      obtain ⟨hremain, hused⟩ := h r hr hi
      simp [TokenRow.moved, Amounts.single, hi, hremain.add_eq, hused.sub_eq]
    · intro r hi
      simp [TokenRow.moved, Amounts.single, hi]
  | channelUsedQuota =>
    rw [moved_channels (by simp +contextual [Amounts.single]), post,
      rows_update ChannelRow.id _ (·.moved (.single _ i d))]
    · intro r hr hi
      simp [ChannelRow.moved, Amounts.single, hi, (h r hr hi).add_eq]
    · intro r hi
      simp [ChannelRow.moved, Amounts.single, hi]

/-- A posting after a move is one from where the move has left its counter. -/
theorem Takes.moved (h : s.Takes c i (a c i + d)) : (s.moved a).Takes c i d := by
  cases c with
  | userQuota | usedQuota | requestCount =>
    intro r hr hi
    obtain ⟨old, hold, rfl⟩ := List.mem_map.mp hr
    obtain rfl : old.id = i := hi
    exact (h old hold rfl).moved
  | tokenQuota =>
    intro r hr hi
    obtain ⟨old, hold, rfl⟩ := List.mem_map.mp hr
    obtain rfl : old.id = i := hi
    obtain ⟨hremain, hused⟩ := h old hold rfl
    rw [Int.neg_add] at hused
    exact ⟨hremain.moved, hused.moved⟩
  | channelUsedQuota =>
    intro r hr hi
    obtain ⟨old, hold, rfl⟩ := List.mem_map.mp hr
    obtain rfl : old.id = i := hi
    exact (h old hold rfl).moved

theorem post_zero (h : s.Takes c i 0) : s.post c i 0 = s :=
  (post_eq_moved h).trans (moved_zero fun c' i' => by simp [Amounts.single])

theorem post_post_neg (h : s.Takes c i d) (h₀ : s.Takes c i 0) :
    (s.post c i d).post c i (-d) = s := by
  have hback : (s.moved (.single c i d)).Takes c i (-d) := by
    refine .moved ?_
    rw [Amounts.single, if_pos ⟨rfl, rfl⟩, Int.add_right_neg]
    exact h₀
  rw [post_eq_moved h, post_eq_moved hback, moved_moved]
  refine moved_zero fun c' i' => ?_
  rw [Amounts.single, Amounts.single]
  split
  · exact Int.add_right_neg d
  · rfl

/-- A draw on an allowance, where it is granted, is a posting of the negative amount. -/
theorem drawToken?_eq_post (hs : s.Sound) (h : s.Takes .tokenQuota i (-d))
    (hdraw : s.drawToken? i d = .ok (true, s')) : s' = s.post .tokenQuota i (-d) := by
  rw [drawToken?, hs.guard] at hdraw
  obtain ⟨hgranted, rfl⟩ := Prod.mk.inj (Except.ok.inj hdraw)
  refine congrArg (fun rows => { s with tokens := { s.tokens with rows } }) ?_
  refine List.map_congr_left fun r hr => ?_
  by_cases hi : r.id = i
  · -- Where ids are distinct, the row that covers the amount is this one.
    have hcovers : r.remainQuota.covers d = true := by
      subst hi
      rw [any_id_and TokenRow.id hs.tokenIds, find?_of_mem TokenRow.id hs.tokenIds hr] at hgranted
      exact hgranted
    obtain ⟨hremain, hused⟩ := h r hr hi
    have hused' : r.usedQuota.sub (-d) = r.usedQuota.add d := by
      rw [hused.sub_eq, (Int.neg_neg d ▸ hused : r.usedQuota.Takes d).add_eq, Int.neg_neg]
    simp only [hi, hcovers, decide_true, Bool.and_self, if_true, hremain.add_eq, hremain.sub_eq,
      hused']
  · simp [hi]

-- ---------------------------------------------------------------------------
-- What moves do to the counters
-- ---------------------------------------------------------------------------

theorem find?_map_key (key : ρ → Int) {f : ρ → ρ} (hf : ∀ r, key (f r) = key r) (rows : List ρ)
    (i : Int) : (rows.map f).find? (fun r => decide (key r = i)) =
      (rows.find? fun r => decide (key r = i)).map f := by
  rw [List.find?_map]
  congr 2
  funext r
  exact congrArg (fun k => decide (k = i)) (hf r)

theorem bind_find?_moved (key : ρ → Int) {f : ρ → ρ} {rows : List ρ} {cell : ρ → Cell} {d : Int}
    (hf : ∀ r, key (f r) = key r) (hc : ∀ r, key r = i → cell (f r) = (cell r).moved d) :
    ((rows.map f).find? fun r => decide (key r = i)).bind (fun r => (cell r).int?) =
      ((rows.find? fun r => decide (key r = i)).bind fun r => (cell r).int?).map (· + d) := by
  rw [find?_map_key key hf]
  cases h : rows.find? fun r => decide (key r = i) with
  | none => rfl
  | some r =>
    have hr : key r = i := by simpa using List.find?_some h
    simp [hc r hr, Cell.int?_moved]

theorem value?_moved (s : Store) (a : Amounts) (c : Counter) (i : Int) :
    (s.moved a).value? c i = (s.value? c i).map (· + a c i) := by
  cases c with
  | userQuota | usedQuota | requestCount =>
    simp only [value?, cell?, Option.bind_map]
    exact bind_find?_moved UserRow.id (fun _ => rfl) fun r hr => by simp [UserRow.moved, hr]
  | tokenQuota =>
    simp only [value?, cell?, Option.bind_map]
    exact bind_find?_moved TokenRow.id (fun _ => rfl) fun r hr => by simp [TokenRow.moved, hr]
  | channelUsedQuota =>
    simp only [value?, cell?, Option.bind_map]
    exact bind_find?_moved ChannelRow.id (fun _ => rfl) fun r hr => by simp [ChannelRow.moved, hr]

def tokenUsed? (s : Store) (id : Int) : Option Int := (s.tokenRow? id).bind (·.usedQuota.int?)

theorem tokenUsed?_moved (s : Store) (a : Amounts) (i : Int) :
    (s.moved a).tokenUsed? i = (s.tokenUsed? i).map (· + -a .tokenQuota i) :=
  bind_find?_moved TokenRow.id (fun _ => rfl) fun r hr => by simp [TokenRow.moved, hr]

end Store

end Tollgate
