import Tollgate.Batch
import Tollgate.Store.Logs

/-!
# Counters of the store

Each counter is kept in one cell of one row, and `cell?` is that view of the
store. Posting to a counter changes its own cell and no other, and a draw that
is granted takes its amount off one cell.
-/

namespace Tollgate

/-- A change of rows that keeps their ids keeps the place of the row with a given id. -/
theorem find?_map_ite (key : ρ → Int) {f : ρ → ρ} (hf : ∀ r, key (f r) = key r) (p : ρ → Prop)
    [DecidablePred p] (rows : List ρ) (i : Int) :
    (rows.map fun r => if p r then f r else r).find? (fun r => decide (key r = i)) =
      (rows.find? fun r => decide (key r = i)).map fun r => if p r then f r else r := by
  rw [List.find?_map]
  congr 2
  funext r
  by_cases h : p r <;> simp [h, hf]

theorem find?_map_id (key : ρ → Int) {f : ρ → ρ} (hf : ∀ r, key (f r) = key r) (rows : List ρ)
    (k i : Int) :
    (rows.map fun r => if key r = k then f r else r).find? (fun r => decide (key r = i)) =
      if i = k then (rows.find? fun r => decide (key r = i)).map f
      else rows.find? fun r => decide (key r = i) := by
  rw [find?_map_ite key hf]
  cases h : rows.find? fun r => decide (key r = i) with
  | none => simp
  | some r =>
    have hr : key r = i := by simpa using List.find?_some h
    by_cases hi : i = k <;> simp [hr, hi]

namespace Cell

def IsWord : Cell → Prop
  | .int n => Word.Fits n
  | .real _ => True

theorem isWord_ofReal (x : Float) : (ofReal x).IsWord := by
  rw [ofReal]
  split
  · have hl := x.toInt64.le_toInt
    have hu := x.toInt64.toInt_lt
    simp only [IsWord, Word.Fits, Word.least, Word.greatest]
    omega
  · trivial

theorem isWord_add (c : Cell) (d : Int) : (c.add d).IsWord := by
  cases c with
  | int n =>
    rw [add]
    split
    · assumption
    · exact isWord_ofReal _
  | real x => exact isWord_ofReal _

theorem isWord_sub (c : Cell) (d : Int) : (c.sub d).IsWord := by
  cases c with
  | int n =>
    rw [sub]
    split
    · assumption
    · exact isWord_ofReal _
  | real x => exact isWord_ofReal _

end Cell

namespace Store

def cell? (s : Store) (counter : Counter) (id : Int) : Option Cell :=
  match counter with
  | .userQuota => (s.userRow? id).map (·.quota)
  | .usedQuota => (s.userRow? id).map (·.usedQuota)
  | .requestCount => (s.userRow? id).map (·.requestCount)
  | .tokenQuota => (s.tokenRow? id).map (·.remainQuota)
  | .channelUsedQuota => (s.channelRow? id).map (·.usedQuota)

theorem cell?_post (s : Store) (c : Counter) (i delta : Int) (c' : Counter) (i' : Int) :
    (s.post c i delta).cell? c' i' =
      if c' = c ∧ i' = i then (s.cell? c i).map (·.add delta) else s.cell? c' i' := by
  by_cases h : i' = i <;> cases c <;> cases c' <;>
    simp [post, cell?, userRow?, tokenRow?, channelRow?, Numbered.update, h, Function.comp_def,
      find?_map_id UserRow.id, find?_map_id TokenRow.id,
      find?_map_id ChannelRow.id]

def value? (s : Store) (counter : Counter) (id : Int) : Option Int :=
  (s.cell? counter id).bind Cell.int?

theorem value?_eq_some {s : Store} : s.value? c i = some n ↔ s.cell? c i = some (.int n) := by
  rw [value?, Option.bind_eq_some_iff]
  constructor
  · rintro ⟨cell, hc, hn⟩
    cases cell with
    | int m => rw [hc, Option.some.inj hn]
    | real x => cases hn
  · intro h
    exact ⟨_, h, rfl⟩

/-- Every statement is carried out, no two users or tokens share an id, and the counters are
words. -/
structure Sound (s : Store) : Prop where
  unlocked : s.poisoned = false
  shown : s.hidden = []
  userIds : (s.users.rows.map (·.id)).Nodup
  tokenIds : (s.tokens.rows.map (·.id)).Nodup
  words : ∀ c i cell, s.cell? c i = some cell → cell.IsWord

theorem Sound.guard {s : Store} (h : s.Sound) (table : Table) : s.guard table = .ok () := by
  simp [Store.guard, h.unlocked, h.shown]

theorem Sound.fits {s : Store} (h : s.Sound) (hn : s.value? c i = some n) : Word.Fits n :=
  h.words c i _ (value?_eq_some.mp hn)

theorem Sound.post?_eq {s : Store} (h : s.Sound) (c : Counter) (i delta : Int) :
    s.post? c i delta = .ok (s.post c i delta) := by
  rw [post?, h.guard]
  rfl

theorem map_key_update {t : Numbered ρ} {key : ρ → Int} {f : ρ → ρ} (hf : ∀ r, key (f r) = key r)
    (p : ρ → Bool) : (t.update p f).rows.map key = t.rows.map key := by
  rw [Numbered.update, List.map_map]
  refine List.map_congr_left fun r _ => ?_
  by_cases h : p r <;> simp [h, hf]

theorem nodup_update {t : Numbered ρ} {key : ρ → Int} {f : ρ → ρ} {p : ρ → Bool}
    (hd : (t.rows.map key).Nodup) (hf : ∀ r, key (f r) = key r) :
    ((t.update p f).rows.map key).Nodup :=
  (map_key_update hf p).symm ▸ hd

theorem Sound.post {s : Store} (h : s.Sound) (c : Counter) (i delta : Int) :
    (s.post c i delta).Sound where
  unlocked := by cases c <;> exact h.unlocked
  shown := by cases c <;> exact h.shown
  userIds := by
    cases c with
    | userQuota | usedQuota | requestCount => exact nodup_update h.userIds fun _ => by rfl
    | tokenQuota | channelUsedQuota => exact h.userIds
  tokenIds := by
    cases c with
    | tokenQuota => exact nodup_update h.tokenIds fun _ => by rfl
    | userQuota | usedQuota | requestCount | channelUsedQuota => exact h.tokenIds
  words := fun c' i' cell hc => by
    rw [cell?_post] at hc
    split at hc
    · obtain ⟨old, -, rfl⟩ := Option.map_eq_some_iff.mp hc
      exact old.isWord_add delta
    · exact h.words c' i' cell hc

-- ---------------------------------------------------------------------------
-- Draws
-- ---------------------------------------------------------------------------

theorem any_id_and (key : ρ → Int) {rows : List ρ} (hd : (rows.map key).Nodup) (q : ρ → Bool)
    (i : Int) :
    (rows.any fun r => decide (key r = i) && q r) =
      (rows.find? fun r => decide (key r = i)).any q := by
  induction rows with
  | nil => rfl
  | cons r rest ih =>
    rw [List.map_cons, List.nodup_cons] at hd
    by_cases h : key r = i
    · have hrest : (rest.any fun r => decide (key r = i) && q r) = false := by
        rw [List.any_eq_false]
        intro r' hr'
        have : key r' ≠ i := fun hi => hd.1 (h ▸ hi ▸ List.mem_map_of_mem hr')
        simp [this]
      simp [h, hrest]
    · simp [h, ih hd.2]

/-- What a draw does to the counters: it is granted where the cell covers the amount, which is
then taken off that cell. -/
structure Drawn (s : Store) (c : Counter) (i amount : Int) (granted : Bool) (s' : Store) :
    Prop where
  granted_eq : granted = (s.cell? c i).any (·.covers amount)
  cell? : ∀ c' i', s'.cell? c' i' =
    if c' = c ∧ i' = i ∧ granted then (s.cell? c i).map (·.sub amount) else s.cell? c' i'

theorem Drawn.words {s s' : Store} (hd : Drawn s c i amount granted s') (h : s.Sound) (c' : Counter)
    (i' : Int) (cell : Cell) (hc : s'.cell? c' i' = some cell) : cell.IsWord := by
  rw [hd.cell?] at hc
  split at hc
  · obtain ⟨old, -, rfl⟩ := Option.map_eq_some_iff.mp hc
    exact old.isWord_sub amount
  · exact h.words c' i' cell hc

theorem find?_map_covered (key : ρ → Int) {f : ρ → ρ} (hf : ∀ r, key (f r) = key r) (q : ρ → Bool)
    (rows : List ρ) (k i : Int) :
    (rows.map fun r => if key r = k ∧ q r then f r else r).find? (fun r => decide (key r = i)) =
      if i = k ∧ (rows.find? fun r => decide (key r = k)).any q then
        (rows.find? fun r => decide (key r = k)).map f
      else rows.find? fun r => decide (key r = i) := by
  rw [find?_map_ite key hf]
  by_cases hi : i = k
  · subst hi
    cases h : rows.find? fun r => decide (key r = i) with
    | none => simp
    | some r =>
      have hr : key r = i := by simpa using List.find?_some h
      by_cases hq : q r <;> simp [hr, hq]
  · cases h : rows.find? fun r => decide (key r = i) with
    | none => simp [hi]
    | some r =>
      have hr : key r = i := by simpa using List.find?_some h
      simp [hr, hi]

theorem drawn_users (s : Store) (i amount : Int) :
    Drawn s .userQuota i amount ((s.cell? .userQuota i).any (·.covers amount))
      { s with users :=
          s.users.update (fun r => decide (r.id = i) && r.quota.covers amount) fun r =>
            { r with quota := r.quota.sub amount } } := by
  refine ⟨rfl, fun c' i' => ?_⟩
  have hg : (s.cell? .userQuota i).any (·.covers amount) =
      (s.users.rows.find? fun r => decide (r.id = i)).any (·.quota.covers amount) := by
    rw [cell?, Option.any_map]; rfl
  rw [hg]
  simp only [cell?, userRow?, tokenRow?, channelRow?, Numbered.update, Bool.and_eq_true,
    decide_eq_true_eq]
  rw [find?_map_covered UserRow.id (fun _ => by rfl)]
  by_cases hp : i' = i ∧
      (s.users.rows.find? fun r => decide (r.id = i)).any (·.quota.covers amount)
  · obtain ⟨rfl, hq⟩ := hp
    cases c' <;> simp [hq, Function.comp_def]
  · cases c' <;> simp [hp]

theorem drawUser?_spec {s : Store} (h : s.Sound) (i amount : Int) :
    ∃ granted s', s.drawUser? i amount = .ok (granted, s') ∧
      Drawn s .userQuota i amount granted s' ∧ s'.Sound := by
  have hd := drawn_users s i amount
  refine ⟨_, _, ?_, hd, ⟨h.unlocked, h.shown, ?_, ?_, hd.words h⟩⟩
  · have hg : (s.users.rows.any fun r => decide (r.id = i) && r.quota.covers amount) =
        (s.cell? .userQuota i).any (·.covers amount) := by
      rw [any_id_and UserRow.id h.userIds, cell?, Option.any_map]; rfl
    rw [drawUser?, h.guard, ← hg]
    rfl
  · exact nodup_update h.userIds fun _ => by rfl
  · exact h.tokenIds

theorem drawn_tokens (s : Store) (i amount : Int) :
    Drawn s .tokenQuota i amount ((s.cell? .tokenQuota i).any (·.covers amount))
      { s with tokens :=
          s.tokens.update (fun r => decide (r.id = i) && r.remainQuota.covers amount) fun r =>
            { r with
              remainQuota := r.remainQuota.sub amount
              usedQuota := r.usedQuota.add amount } } := by
  refine ⟨rfl, fun c' i' => ?_⟩
  have hg : (s.cell? .tokenQuota i).any (·.covers amount) =
      (s.tokens.rows.find? fun r => decide (r.id = i)).any (·.remainQuota.covers amount) := by
    rw [cell?, Option.any_map]; rfl
  rw [hg]
  simp only [cell?, userRow?, tokenRow?, channelRow?, Numbered.update, Bool.and_eq_true,
    decide_eq_true_eq]
  rw [find?_map_covered TokenRow.id (fun _ => by rfl)]
  by_cases hp : i' = i ∧
      (s.tokens.rows.find? fun r => decide (r.id = i)).any (·.remainQuota.covers amount)
  · obtain ⟨rfl, hq⟩ := hp
    cases c' <;> simp [hq, Function.comp_def]
  · cases c' <;> simp [hp]

theorem drawToken?_spec {s : Store} (h : s.Sound) (i amount : Int) :
    ∃ granted s', s.drawToken? i amount = .ok (granted, s') ∧
      Drawn s .tokenQuota i amount granted s' ∧ s'.Sound := by
  have hd := drawn_tokens s i amount
  refine ⟨_, _, ?_, hd, ⟨h.unlocked, h.shown, ?_, ?_, hd.words h⟩⟩
  · have hg : (s.tokens.rows.any fun r => decide (r.id = i) && r.remainQuota.covers amount) =
        (s.cell? .tokenQuota i).any (·.covers amount) := by
      rw [any_id_and TokenRow.id h.tokenIds, cell?, Option.any_map]; rfl
    rw [drawToken?, h.guard, ← hg]
    rfl
  · exact h.userIds
  · exact nodup_update h.tokenIds fun _ => by rfl

theorem Drawn.value? {s s' : Store} (h : Drawn s c i amount granted s')
    (hn : s.value? c i = some n) (hw : Word.Fits n) (ha : 0 ≤ amount) :
    granted = decide (amount ≤ n) ∧
      s'.value? c i = some (if granted then n - amount else n) := by
  rw [value?_eq_some] at hn
  have hg : granted = decide (amount ≤ n) := by simp [h.granted_eq, hn, Cell.covers]
  refine ⟨hg, ?_⟩
  rw [value?_eq_some, h.cell?, hn]
  by_cases hc : amount ≤ n
  · simp [hg, hc, Cell.sub_int (hw.sub ha hc)]
  · simp [hg, hc]

theorem Drawn.value?_of_ne {s s' : Store} (h : Drawn s c i amount granted s')
    (hne : ¬(c' = c ∧ i' = i)) : s'.value? c' i' = s.value? c' i' := by
  rw [Store.value?, h.cell?, if_neg (fun hc => hne ⟨hc.1, hc.2.1⟩), Store.value?]

theorem find?_of_mem (key : ρ → Int) {rows : List ρ} (hd : (rows.map key).Nodup) (hr : r ∈ rows) :
    (rows.find? fun r' => decide (key r' = key r)) = some r := by
  induction rows with
  | nil => cases hr
  | cons r' rest ih =>
    rw [List.map_cons, List.nodup_cons] at hd
    rcases List.mem_cons.mp hr with rfl | hr
    · simp
    · have hne : key r' ≠ key r := fun hk => hd.1 (hk ▸ List.mem_map_of_mem hr)
      simp [hne, ih hd.2 hr]

/-- A draw on a balance that covers it is a posting of the negative amount. -/
theorem drawUser?_eq_post {s : Store} (h : s.Sound) (hn : s.value? .userQuota i = some n)
    (ha : 0 ≤ amount) (hle : amount ≤ n) :
    s.drawUser? i amount = .ok (true, s.post .userQuota i (-amount)) := by
  obtain ⟨granted, s', hdraw, hdrawn, -⟩ := drawUser?_spec h i amount
  have hgranted : granted = true := by
    rw [(hdrawn.value? hn (h.fits hn) ha).1]
    exact decide_eq_true hle
  subst hgranted
  rw [hdraw]
  rw [drawUser?, h.guard] at hdraw
  obtain ⟨-, rfl⟩ := Prod.mk.inj (Except.ok.inj hdraw)
  refine congrArg (fun rows => Except.ok (true, { s with users := { s.users with rows } })) ?_
  refine List.map_congr_left fun r hr => ?_
  by_cases hi : r.id = i
  · subst hi
    -- The row is the one that the balance was found in.
    have hq : r.quota = .int n := by
      have hcell := value?_eq_some.mp hn
      rw [cell?, userRow?, find?_of_mem UserRow.id h.userIds hr] at hcell
      exact Option.some.inj hcell
    have hsub := (h.fits hn).sub ha hle
    simp [hq, Cell.covers, hle, Cell.sub_int hsub, Cell.add_int (Int.sub_eq_add_neg ▸ hsub),
      Int.sub_eq_add_neg]
  · simp [hi]

-- ---------------------------------------------------------------------------
-- Direct writes
-- ---------------------------------------------------------------------------

/-- The store with another quota for a user. -/
def withQuota (s : Store) (u n : Int) : Store :=
  { s with users := s.users.update (·.id = u) fun r => { r with quota := .int n } }

theorem overwrite_quota {s s' : Store} (h : s.Sound)
    (ho : s.overwrite .users "quota" u n = .ok (count, s')) : s' = s.withQuota u n := by
  have hg : s.unlocked.guard .users = .ok () := by simp [unlocked, guard, h.shown]
  have hrows : (s.users.rows.map fun r =>
      if decide (r.id = u) then (r.withColumn? "quota" n).getD r else r) =
        s.users.rows.map fun r => if decide (r.id = u) then { r with quota := .int n } else r := by
    refine List.map_congr_left fun r _ => ?_
    simp [UserRow.withColumn?]
  rw [overwrite, hg] at ho
  simp only [updateRows, hrows] at ho
  have hcolumn : ¬"quota" ∉ Table.users.columns := by decide
  rw [if_neg hcolumn] at ho
  -- The ids and the names have to be distinct, or nothing is written.
  generalize distinct (κ := Int) Table.users ["id"] _ = ids at ho
  generalize distinct (κ := String) Table.users ["username"] _ = names at ho
  cases ids with
  | error f => cases ho
  | ok _ =>
    cases names with
    | error f => cases ho
    | ok _ => exact (congrArg Prod.snd (Except.ok.inj ho)).symm

theorem cell?_withQuota (s : Store) (u n : Int) (c : Counter) (i : Int) :
    (s.withQuota u n).cell? c i =
      if c = .userQuota ∧ i = u then (s.cell? c i).map fun _ => .int n else s.cell? c i := by
  by_cases hi : i = u <;> cases c <;>
    simp [withQuota, cell?, userRow?, tokenRow?, channelRow?, Numbered.update, hi,
      Function.comp_def, find?_map_id UserRow.id]

theorem Sound.withQuota {s : Store} (h : s.Sound) (hw : Word.Fits n) (u : Int) :
    (s.withQuota u n).Sound where
  unlocked := h.unlocked
  shown := h.shown
  userIds := nodup_update h.userIds fun _ => by rfl
  tokenIds := h.tokenIds
  words := fun c i cell hc => by
    rw [cell?_withQuota] at hc
    split at hc
    · obtain ⟨_, -, rfl⟩ := Option.map_eq_some_iff.mp hc
      exact hw
    · exact h.words c i cell hc

-- ---------------------------------------------------------------------------
-- The usage log
-- ---------------------------------------------------------------------------

theorem addLog_eq_ok {s s' : Store} (h : s.addLog e = .ok (i, s')) :
    s' = { s with logs := s'.logs } := by
  rw [addLog] at h
  cases hg : s.guard .logs with
  | error f => rw [hg] at h; cases h
  | ok _ =>
    rw [hg] at h
    cases ha : s.logs.assign 0 with
    | error f => rw [ha] at h; cases h
    | ok i => rw [ha] at h; cases h; rfl

theorem Sound.withLogs {s : Store} (h : s.Sound) (logs : Numbered LogEntry) :
    { s with logs }.Sound :=
  ⟨h.unlocked, h.shown, h.userIds, h.tokenIds, fun c i cell hc => h.words c i cell (by
    cases c <;> exact hc)⟩

theorem cell?_withLogs (s : Store) (logs : Numbered LogEntry) (c : Counter) (i : Int) :
    { s with logs }.cell? c i = s.cell? c i := by
  cases c <;> rfl

end Store

end Tollgate
