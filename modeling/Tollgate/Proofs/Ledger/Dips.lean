import Tollgate.Notice

/-!
# One notice per dip and level

A user's dip is what has been observed since the balance was last neither low
nor used up. A watch keeps one level for each user, and that level is the
depth of the dip (`Watch.Follows`): so an observation calls for a notice
exactly where it goes deeper than the dip has been so far (`notices_exact`).
-/

namespace Tollgate

abbrev Observation := Int × Int

def Notice.depth : Notice → Nat
  | .low .. => 1
  | .exhausted => 2

theorem AlarmLevel.rank_pos (level : AlarmLevel) : 0 < level.rank := by
  cases level <;> decide

namespace Watch

/-- 2 for a balance that is used up, 1 for one that runs low, 0 for any other. -/
def depth (threshold balance : Int) : Nat :=
  if balance ≤ 0 then 2 else if 0 < threshold ∧ balance < threshold then 1 else 0

/-- The balances observed of a user since the last one at depth 0, the latest first. -/
def dip (threshold userId : Int) (past : List Observation) : List Int :=
  ((past.reverse.filter (·.1 = userId)).map (·.2)).takeWhile (0 < depth threshold ·)

def deepest (threshold : Int) (balances : List Int) : Nat :=
  balances.foldr (fun balance d => max (depth threshold balance) d) 0

variable {threshold balance u v : Int} {obs : List Observation} {d : Nat}

theorem depth_le (threshold balance : Int) : depth threshold balance ≤ 2 := by
  unfold depth
  split
  · exact Nat.le_refl 2
  · split <;> decide

theorem rank_of? (threshold balance : Int) :
    (AlarmLevel.of? threshold balance).elim 0 AlarmLevel.rank = depth threshold balance := by
  unfold AlarmLevel.of? depth
  split
  · rfl
  · split <;> rfl

theorem deepest_lt (hd : 0 < d) {balances : List Int} :
    deepest threshold balances < d ↔ ∀ balance ∈ balances, depth threshold balance < d := by
  induction balances with
  | nil => simp [deepest, hd]
  | cons balance rest ih =>
    simp only [deepest, List.foldr_cons, Nat.max_lt, List.forall_mem_cons] at ih ⊢
    rw [ih]

theorem dip_concat_other (h : u ≠ v) (past : List Observation) (balance : Int) :
    dip threshold v (past ++ [(u, balance)]) = dip threshold v past := by
  simp [dip, h]

theorem dip_concat_own (past : List Observation) (u balance : Int) :
    dip threshold u (past ++ [(u, balance)]) =
      if 0 < depth threshold balance then balance :: dip threshold u past else [] := by
  simp [dip, List.takeWhile_cons]

variable {w : Watch} {past rest : List (Observation × Option Notice)}

/-- The depth that a user has been told of, 0 where the watch is armed. -/
def toldDepth (w : Watch) (u : Int) : Nat := (w.told.get? u).elim 0 AlarmLevel.rank

def noticeAt (threshold balance : Int) : Notice :=
  if depth threshold balance = 2 then .exhausted else .low balance threshold

theorem depth_noticeAt (h : 0 < depth threshold balance) :
    (noticeAt threshold balance).depth = depth threshold balance := by
  have hle := depth_le threshold balance
  unfold noticeAt
  split
  · next h2 => exact h2.symm
  · show 1 = _
    omega

theorem notice_eq_noticeAt {level : AlarmLevel} (h : depth w.threshold balance = level.rank) :
    w.notice balance level = noticeAt w.threshold balance := by
  cases level <;> simp [notice, noticeAt, h, AlarmLevel.rank]

theorem threshold_observe (w : Watch) (u balance : Int) :
    (w.observe u balance).2.threshold = w.threshold := by
  unfold observe
  split
  · rfl
  · split
    · split <;> rfl
    · rfl

theorem observe_fst (w : Watch) (u balance : Int) :
    (w.observe u balance).1 =
      if w.toldDepth u < depth w.threshold balance then some (noticeAt w.threshold balance)
      else none := by
  have hrank := rank_of? w.threshold balance
  unfold observe toldDepth
  cases hlevel : AlarmLevel.of? w.threshold balance with
  | none =>
    rw [hlevel] at hrank
    simp [← hrank]
  | some level =>
    rw [hlevel] at hrank
    have hnotice := notice_eq_noticeAt hrank.symm
    simp only [Option.elim] at hrank ⊢
    cases w.told.get? u with
    | none =>
      simp [hnotice, ← hrank, level.rank_pos]
    | some before =>
      by_cases hle : level.rank ≤ before.rank
      · simp [hle, ← hrank]
      · simp [hle, hnotice, ← hrank, Nat.lt_of_not_le hle]

theorem toldDepth_observe (w : Watch) (u balance v : Int) :
    (w.observe u balance).2.toldDepth v =
      if v = u then
        if 0 < depth w.threshold balance then max (depth w.threshold balance) (w.toldDepth u)
        else 0
      else w.toldDepth v := by
  have hrank := rank_of? w.threshold balance
  unfold observe toldDepth
  cases hlevel : AlarmLevel.of? w.threshold balance with
  | none =>
    rw [hlevel] at hrank
    by_cases hv : v = u <;> simp [Dict.get?_erase, hv, ← hrank]
  | some level =>
    rw [hlevel] at hrank
    have hpos := level.rank_pos
    simp only [Option.elim] at hrank ⊢
    cases hbefore : w.told.get? u with
    | none => by_cases hv : v = u <;> simp [Dict.get?_set, hv, ← hrank, hpos]
    | some before =>
      by_cases hle : level.rank ≤ before.rank
      · by_cases hv : v = u <;> simp [hle, hv, hbefore, ← hrank, hpos]
      · have hge : before.rank ≤ level.rank := by omega
        by_cases hv : v = u <;> simp [hle, Dict.get?_set, hv, ← hrank, hpos, hge]

-- ---------------------------------------------------------------------------
-- Runs
-- ---------------------------------------------------------------------------

def record (w : Watch) (obs : List Observation) : List (Observation × Option Notice) :=
  obs.zip (w.observeAll obs)

def after (w : Watch) : List Observation → Watch
  | [] => w
  | o :: obs => (w.observe o.1 o.2).2.after obs

def noticesTo (u : Int) (record : List (Observation × Option Notice)) : List Notice :=
  record.filterMap fun e => if e.1.1 = u then e.2 else none

theorem record_cons (w : Watch) (o : Observation) (obs : List Observation) :
    w.record (o :: obs) = (o, (w.observe o.1 o.2).1) :: (w.observe o.1 o.2).2.record obs := rfl

theorem map_fst_record (obs : List Observation) : (w.record obs).map Prod.fst = obs := by
  induction obs generalizing w with
  | nil => rfl
  | cons o obs ih => rw [record_cons, List.map_cons, ih]

theorem record_append (obs later : List Observation) :
    w.record (obs ++ later) = w.record obs ++ (w.after obs).record later := by
  induction obs generalizing w with
  | nil => rfl
  | cons o obs ih => exact congrArg (_ :: ·) ih

theorem record_split (h : w.record obs = past ++ rest) :
    past = w.record (past.map Prod.fst) ∧
      rest = (w.after (past.map Prod.fst)).record (rest.map Prod.fst) := by
  have hobs : obs = past.map Prod.fst ++ rest.map Prod.fst := by
    rw [← map_fst_record (w := w) obs, h, List.map_append]
  have hlength : past.length = (w.record (past.map Prod.fst)).length := by
    have hmap := congrArg List.length (map_fst_record (w := w) (past.map Prod.fst))
    simpa using hmap.symm
  rw [hobs, record_append] at h
  exact List.append_inj h.symm hlength

theorem threshold_after (obs : List Observation) : (w.after obs).threshold = w.threshold := by
  induction obs generalizing w with
  | nil => rfl
  | cons o obs ih => rw [after, ih, threshold_observe]

/-- For each user the watch remembers how deep the dip is. -/
def Follows (w : Watch) (past : List Observation) : Prop :=
  ∀ u, w.toldDepth u = deepest w.threshold (dip w.threshold u past)

theorem Follows.observe {past : List Observation} (h : w.Follows past) (o : Observation) :
    (w.observe o.1 o.2).2.Follows (past ++ [o]) := by
  intro u
  rw [toldDepth_observe, threshold_observe]
  by_cases hu : u = o.1
  · subst hu
    rw [if_pos rfl, dip_concat_own]
    split
    · rw [h, deepest, deepest, List.foldr_cons]
    · rfl
  · rw [if_neg hu, dip_concat_other (Ne.symm hu)]
    exact h u

theorem Follows.after {past : List Observation} (h : w.Follows past) (obs : List Observation) :
    (w.after obs).Follows (past ++ obs) := by
  induction obs generalizing w past with
  | nil => simpa [Watch.after] using h
  | cons o obs ih => simpa [Watch.after] using ih (h.observe o)

theorem record_filter {w w' : Watch} (ht : w.threshold = w'.threshold)
    (hu : w.toldDepth u = w'.toldDepth u) (obs : List Observation) :
    (w.record obs).filter (·.1.1 = u) = w'.record (obs.filter (·.1 = u)) := by
  induction obs generalizing w w' with
  | nil => rfl
  | cons o obs ih =>
    by_cases ho : o.1 = u
    · have hanswer : (w.observe o.1 o.2).1 = (w'.observe o.1 o.2).1 := by
        rw [observe_fst, observe_fst, ho, ht, hu]
      have hnext : ((w.observe o.1 o.2).2.record obs).filter (·.1.1 = u) =
          (w'.observe o.1 o.2).2.record (obs.filter (·.1 = u)) := ih
        (by rw [threshold_observe, threshold_observe, ht])
        (by rw [toldDepth_observe, toldDepth_observe, ho, ht, hu])
      rw [record_cons, List.filter_cons_of_pos (by simpa using ho),
        List.filter_cons_of_pos (by simpa using ho), record_cons, hanswer, hnext]
    · have hnext : ((w.observe o.1 o.2).2.record obs).filter (·.1.1 = u) =
          w'.record (obs.filter (·.1 = u)) := ih
        (by rw [threshold_observe, ht])
        (by rw [toldDepth_observe, if_neg (Ne.symm ho), hu])
      simp [record_cons, ho, hnext]

theorem noticesTo_cons (u : Int) (o : Observation) (obs : List Observation) :
    noticesTo u (w.record (o :: obs)) =
      (if o.1 = u then (w.observe o.1 o.2).1 else none).toList ++
        noticesTo u ((w.observe o.1 o.2).2.record obs) := by
  rw [record_cons, noticesTo, List.filterMap_cons]
  cases if o.1 = u then (w.observe o.1 o.2).1 else none <;> rfl

/-- As long as a user's balance stays low, each notice tells of a greater depth than all before. -/
theorem ascending_noticesTo (obs : List Observation)
    (h : ∀ o ∈ obs, o.1 = u → 0 < depth w.threshold o.2) :
    (w.toldDepth u :: (noticesTo u (w.record obs)).map Notice.depth).Pairwise (· < ·) ∧
      ∀ d ∈ (noticesTo u (w.record obs)).map Notice.depth, d ≤ 2 := by
  induction obs generalizing w with
  | nil => simp [record, observeAll, noticesTo]
  | cons o obs ih =>
    obtain ⟨ho, hrest⟩ := List.forall_mem_cons.mp h
    obtain ⟨hasc, hle⟩ := ih (w := (w.observe o.1 o.2).2) (by rwa [threshold_observe])
    rw [toldDepth_observe] at hasc
    rw [noticesTo_cons]
    by_cases hu : o.1 = u
    · have hpos := ho hu
      rw [if_pos hu.symm, if_pos hpos, hu] at hasc
      rw [if_pos hu, observe_fst, hu]
      split
      · next hdeeper =>
        -- The notice takes the place of the depth that the user had been told of.
        rw [Nat.max_eq_left (Nat.le_of_lt hdeeper)] at hasc
        rw [Option.toList_some, List.singleton_append, List.map_cons, depth_noticeAt hpos]
        refine ⟨List.pairwise_cons.mpr ⟨?_, hu ▸ hasc⟩, ?_⟩
        · intro d hd
          rcases List.mem_cons.mp hd with rfl | hd
          · exact hdeeper
          · exact Nat.lt_trans hdeeper ((List.pairwise_cons.mp hasc).1 d (hu ▸ hd))
        · intro d hd
          rcases List.mem_cons.mp hd with rfl | hd
          · exact depth_le _ _
          · exact hle d (hu ▸ hd)
      · next hdeeper =>
        rw [Nat.max_eq_right (Nat.le_of_not_lt hdeeper)] at hasc
        exact ⟨hu ▸ hasc, hu ▸ hle⟩
    · rw [if_neg (Ne.symm hu)] at hasc
      rw [if_neg hu]
      exact ⟨hasc, hle⟩

theorem sublist_of_ascending {ds : List Nat} (h : (d :: ds).Pairwise (· < ·))
    (hle : ∀ d ∈ ds, d ≤ 2) : ds.Sublist [1, 2] := by
  match ds with
  | [] => exact List.nil_sublist _
  | [a] =>
    have ha : a = 1 ∨ a = 2 := by simp at h hle; omega
    rcases ha with rfl | rfl <;> decide
  | [a, b] =>
    obtain ⟨rfl, rfl⟩ : a = 1 ∧ b = 2 := by simp at h hle; omega
    exact List.Sublist.refl _
  | a :: b :: c :: rest =>
    simp at h hle
    omega

/-- Every observation is answered: a user is told of a balance exactly where it is deeper than all
that were observed since the last one that was not low, so that one dip brings at most one notice
of a low balance and after it at most one of an empty one; what is observed of others makes no
difference. -/
theorem notices_exact (threshold : Int) (obs : List Observation) :
    (({ threshold } : Watch).record obs).map Prod.fst = obs ∧
    (∀ (past rest : List (Observation × Option Notice)) o answer,
      ({ threshold } : Watch).record obs = past ++ (o, answer) :: rest →
      answer =
        if 0 < depth threshold o.2 ∧
            ∀ earlier ∈ dip threshold o.1 (past.map Prod.fst),
              depth threshold earlier < depth threshold o.2 then
          some (if depth threshold o.2 = 2 then .exhausted else .low o.2 threshold)
        else none) ∧
    (∀ past during rest u,
      ({ threshold } : Watch).record obs = past ++ during ++ rest →
      (∀ e ∈ during, e.1.1 = u → 0 < depth threshold e.1.2) →
      ((noticesTo u during).map Notice.depth).Sublist [1, 2]) ∧
    ∀ u, (({ threshold } : Watch).record obs).filter (·.1.1 = u) =
      ({ threshold } : Watch).record (obs.filter (·.1 = u)) := by
  refine ⟨map_fst_record obs, fun past rest o answer h => ?_,
    fun past during rest u h hlow => ?_, fun u => ?_⟩
  · have hnew : ({ threshold } : Watch).Follows [] := fun u => rfl
    have hfollows := hnew.after (past.map Prod.fst)
    obtain ⟨-, hrest⟩ := record_split h
    rw [List.map_cons, record_cons] at hrest
    obtain ⟨hanswer, -⟩ := List.cons.inj hrest
    have hthreshold : (({ threshold } : Watch).after (past.map Prod.fst)).threshold = threshold :=
      threshold_after _
    rw [(Prod.mk.inj hanswer).2, observe_fst, hfollows, hthreshold, List.nil_append, noticeAt]
    by_cases hpos : 0 < depth threshold o.2
    · simp only [deepest_lt hpos, hpos, true_and]
    · simp [Nat.eq_zero_of_not_pos hpos]
  · rw [List.append_assoc] at h
    obtain ⟨-, hrest⟩ := record_split h
    obtain ⟨hduring, -⟩ := record_split hrest.symm
    rw [hduring]
    -- The bound holds however deep the user was when the part began.
    have hpositive : ∀ o ∈ during.map Prod.fst, o.1 = u →
        0 < depth (({ threshold } : Watch).after (past.map Prod.fst)).threshold o.2 := by
      intro o ho hu
      rw [threshold_after]
      obtain ⟨e, he, rfl⟩ := List.mem_map.mp ho
      exact hlow e he hu
    obtain ⟨hasc, hle⟩ := ascending_noticesTo _ hpositive
    exact sublist_of_ascending hasc hle
  · exact record_filter rfl rfl obs

def refilledRun : List Observation :=
  [(1, 80), (2, 10), (1, 60), (1, 0), (2, 500), (1, 50), (1, 500), (1, -3)]

theorem notices_exact_refilled :
    ({ threshold := 100 } : Watch).observeAll refilledRun =
        [some (.low 80 100), some (.low 10 100), none, some .exhausted, none, none, none,
          some .exhausted] ∧
      (∀ e ∈ (({ threshold := 100 } : Watch).record refilledRun).take 6,
        e.1.1 = 1 → 0 < depth 100 e.1.2) ∧
      ((noticesTo 1 ((({ threshold := 100 } : Watch).record refilledRun).take 6)).map
        Notice.depth).Sublist [1, 2] := by
  have hlow : ∀ e ∈ (({ threshold := 100 } : Watch).record refilledRun).take 6,
      e.1.1 = 1 → 0 < depth 100 e.1.2 := by decide
  exact ⟨by decide, hlow,
    (notices_exact 100 refilledRun).2.2.1 [] _ ((({ threshold := 100 } : Watch).record
      refilledRun).drop 6) 1 rfl hlow⟩

end Watch

end Tollgate
