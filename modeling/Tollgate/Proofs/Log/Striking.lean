import Mathlib.Data.List.Infix
import Tollgate.Log.Pattern

/-!
# What is left where a pattern is struck out

`Matches` says which texts are of a pattern, and a search finds one at the
beginning of a text wherever there is one (`begins_iff`). So striking out
goes from left to right and passes over a character only where no match begins
(`struck_replaceAll`). A pattern that the text was free of, or that was itself
struck out, does not come back where a replacement meets its surroundings, if the
replacement is `Harmless` for it (`Struck.not_occurs`).
-/

namespace Tollgate

def PatternPiece.taken : PatternPiece → CharClass
  | .one p | .optional p | .many p => p

namespace Pattern

/-- The texts of a pattern. -/
inductive Matches : Pattern → List Char → Prop where
  | nil : Matches [] []
  | one {s : CharClass} : s c = true → Matches p cs → Matches (.one s :: p) (c :: cs)
  | without {s : CharClass} : Matches p cs → Matches (.optional s :: p) cs
  | once {s : CharClass} : s c = true → Matches p cs → Matches (.optional s :: p) (c :: cs)
  | done {s : CharClass} : Matches p cs → Matches (.many s :: p) cs
  | more {s : CharClass} :
    s c = true → Matches (.many s :: p) cs → Matches (.many s :: p) (c :: cs)

def Begins (p : Pattern) (cs : List Char) : Prop := ∃ found, found <+: cs ∧ p.Matches found

def OccursIn (p : Pattern) (cs : List Char) : Prop := ∃ found, found <:+: cs ∧ p.Matches found

/-- `out` is `cs` with every match struck out that begins where the one before has ended, or after
it; none that begins earlier is passed over. -/
inductive Struck (p : Pattern) (new : List Char) : List Char → List Char → Prop where
  | nil : Struck p new [] []
  | keep : ¬p.Begins (c :: cs) → Struck p new cs out → Struck p new (c :: cs) (c :: out)
  | strike : p.Matches found → Struck p new rest out → Struck p new (found ++ rest) (new ++ out)

def stars : List Char := ['*', '*', '*']

/-- A replacement of `p` that is `lead` and then stars makes no text of `q`: none has a star or lies
in `lead`, and where one would run into `lead`, it would run as well into what `lead` is put in
place of. -/
structure Harmless (q p : Pattern) (lead : List Char) : Prop where
  unstarred : q.Matches found → '*' ∉ found
  inside : found <:+: lead → ¬q.Matches found
  joined : q.Matches (before ++ front) → front <+: lead → front ≠ [] → p.Matches struck →
    q.Begins (before ++ struck)

variable {p q : Pattern} {c : Char} {cs found out rest lead : List Char}

theorem Begins.append (h : p.Begins cs) (rest : List Char) : p.Begins (cs ++ rest) := by
  obtain ⟨found, hfound, hm⟩ := h
  exact ⟨found, hfound.trans (List.prefix_append cs rest), hm⟩

theorem Begins.occursIn (h : p.Begins rest) (hrest : rest <:+ cs) : p.OccursIn cs := by
  obtain ⟨found, hfound, hm⟩ := h
  exact ⟨found, hfound.isInfix.trans hrest.isInfix, hm⟩

-- ---------------------------------------------------------------------------
-- The texts of a pattern
-- ---------------------------------------------------------------------------

theorem matches_append :
    Matches (p ++ q) cs ↔ ∃ before after, cs = before ++ after ∧ p.Matches before ∧
      q.Matches after := by
  constructor
  · intro h
    -- The text is taken apart along with the pieces, until those of `p` are used up.
    generalize hpq : p ++ q = ps at h
    induction h generalizing p with
    | nil =>
      obtain ⟨rfl, rfl⟩ := List.append_eq_nil_iff.mp hpq
      exact ⟨[], [], rfl, .nil, .nil⟩
    | one hc hm ih =>
      rcases List.append_eq_cons_iff.mp hpq with ⟨rfl, rfl⟩ | ⟨p, rfl, rfl⟩
      · exact ⟨[], _, rfl, .nil, .one hc hm⟩
      · obtain ⟨before, after, rfl, hbefore, hafter⟩ := ih rfl
        exact ⟨_ :: before, after, rfl, .one hc hbefore, hafter⟩
    | without hm ih =>
      rcases List.append_eq_cons_iff.mp hpq with ⟨rfl, rfl⟩ | ⟨p, rfl, rfl⟩
      · exact ⟨[], _, rfl, .nil, .without hm⟩
      · obtain ⟨before, after, rfl, hbefore, hafter⟩ := ih rfl
        exact ⟨before, after, rfl, .without hbefore, hafter⟩
    | once hc hm ih =>
      rcases List.append_eq_cons_iff.mp hpq with ⟨rfl, rfl⟩ | ⟨p, rfl, rfl⟩
      · exact ⟨[], _, rfl, .nil, .once hc hm⟩
      · obtain ⟨before, after, rfl, hbefore, hafter⟩ := ih rfl
        exact ⟨_ :: before, after, rfl, .once hc hbefore, hafter⟩
    | done hm ih =>
      rcases List.append_eq_cons_iff.mp hpq with ⟨rfl, rfl⟩ | ⟨p, rfl, rfl⟩
      · exact ⟨[], _, rfl, .nil, .done hm⟩
      · obtain ⟨before, after, rfl, hbefore, hafter⟩ := ih rfl
        exact ⟨before, after, rfl, .done hbefore, hafter⟩
    | more hc hm ih =>
      rcases List.append_eq_cons_iff.mp hpq with ⟨rfl, rfl⟩ | ⟨p, rfl, rfl⟩
      · exact ⟨[], _, rfl, .nil, .more hc hm⟩
      · obtain ⟨before, after, rfl, hbefore, hafter⟩ := ih (p := .many _ :: p) rfl
        exact ⟨_ :: before, after, rfl, .more hc hbefore, hafter⟩
  · rintro ⟨before, after, rfl, hbefore, hafter⟩
    induction hbefore with
    | nil => exact hafter
    | one hc _ ih => exact .one hc ih
    | without _ ih => exact .without ih
    | once hc _ ih => exact .once hc ih
    | done _ ih => exact .done ih
    | more hc _ ih => exact .more hc ih

theorem matches_literal {s : String} : Matches (literal s) cs ↔ cs = s.toList := by
  rw [literal]
  induction s.toList generalizing cs with
  | nil =>
    constructor
    · rintro ⟨⟩
      rfl
    · rintro rfl
      exact .nil
  | cons a as ih =>
    constructor
    · rintro (_ | ⟨hc, hm⟩)
      rw [of_decide_eq_true hc, ih.mp hm]
    · rintro rfl
      exact .one (decide_eq_true rfl) (ih.mpr rfl)

theorem matches_many {s : CharClass} : Matches [.many s] cs ↔ ∀ c ∈ cs, s c = true := by
  induction cs with
  | nil => exact iff_of_true (.done .nil) nofun
  | cons c cs ih =>
    rw [List.forall_mem_cons, ← ih]
    constructor
    · rintro (_ | _ | _ | _ | ⟨⟨⟩⟩ | ⟨hc, hm⟩)
      exact ⟨hc, hm⟩
    · exact fun h => .more h.1 h.2

theorem matches_atLeast {s : CharClass} {n : Nat} :
    Matches (atLeast n s) cs ↔ n ≤ cs.length ∧ ∀ c ∈ cs, s c = true := by
  induction n generalizing cs with
  | zero =>
    show Matches [.many s] cs ↔ _
    rw [matches_many]
    simp
  | succ n ih =>
    show Matches (.one s :: atLeast n s) cs ↔ _
    constructor
    · rintro (_ | ⟨hc, hm⟩)
      obtain ⟨hlen, hcs⟩ := ih.mp hm
      exact ⟨Nat.succ_le_succ hlen, List.forall_mem_cons.mpr ⟨hc, hcs⟩⟩
    · rintro ⟨hlen, hcs⟩
      obtain ⟨c, cs, rfl⟩ := List.exists_cons_of_length_pos (Nat.zero_lt_of_lt hlen)
      obtain ⟨hc, hcs⟩ := List.forall_mem_cons.mp hcs
      exact .one hc (ih.mpr ⟨Nat.le_of_succ_le_succ hlen, hcs⟩)

theorem Matches.taken (h : p.Matches cs) : ∀ c ∈ cs, ∃ piece ∈ p, piece.taken c = true := by
  induction h with
  | nil => exact nofun
  | one hc _ ih | once hc _ ih =>
    refine List.forall_mem_cons.mpr ⟨⟨_, List.mem_cons_self, hc⟩, fun d hd => ?_⟩
    obtain ⟨piece, hpiece, hd⟩ := ih d hd
    exact ⟨piece, List.mem_cons_of_mem _ hpiece, hd⟩
  | without _ ih | done _ ih =>
    intro d hd
    obtain ⟨piece, hpiece, hd⟩ := ih d hd
    exact ⟨piece, List.mem_cons_of_mem _ hpiece, hd⟩
  | more hc _ ih => exact List.forall_mem_cons.mpr ⟨⟨_, List.mem_cons_self, hc⟩, ih⟩

theorem Matches.ne_nil {s : CharClass} (h : p.Matches cs) (hs : .one s ∈ p) : cs ≠ [] := by
  induction h with
  | nil => cases hs
  | one | once | more => exact List.cons_ne_nil _ _
  | without _ ih | done _ ih =>
    rcases List.mem_cons.mp hs with hs | hs
    · cases hs
    · exact ih hs

-- ---------------------------------------------------------------------------
-- Searching
-- ---------------------------------------------------------------------------

theorem matches_of_after? (h : after? p cs = some rest) :
    ∃ found, cs = found ++ rest ∧ p.Matches found := by
  fun_induction after? p cs with
  | case1 cs =>
    cases h
    exact ⟨[], rfl, .nil⟩
  | case2 => cases h
  | case3 s ps c cs hc ih =>
    obtain ⟨found, rfl, hm⟩ := ih h
    exact ⟨c :: found, rfl, .one hc hm⟩
  | case4 => cases h
  | case5 s ps ih =>
    obtain ⟨found, hcs, hm⟩ := ih h
    exact ⟨found, hcs, .without hm⟩
  | case6 s ps c cs hc rest' hafter ih =>
    cases h
    obtain ⟨found, rfl, hm⟩ := ih hafter
    exact ⟨c :: found, rfl, .once hc hm⟩
  | case7 s ps c cs hc hafter ih₁ ih =>
    obtain ⟨found, hcs, hm⟩ := ih h
    exact ⟨found, hcs, .without hm⟩
  | case8 s ps c cs hc ih =>
    obtain ⟨found, hcs, hm⟩ := ih h
    exact ⟨found, hcs, .without hm⟩
  | case9 s ps ih =>
    obtain ⟨found, hcs, hm⟩ := ih h
    exact ⟨found, hcs, .done hm⟩
  | case10 s ps c cs hc rest' hafter ih =>
    cases h
    obtain ⟨found, rfl, hm⟩ := ih hafter
    exact ⟨c :: found, rfl, .more hc hm⟩
  | case11 s ps c cs hc hafter ih₁ ih =>
    obtain ⟨found, hcs, hm⟩ := ih h
    exact ⟨found, hcs, .done hm⟩
  | case12 s ps c cs hc ih =>
    obtain ⟨found, hcs, hm⟩ := ih h
    exact ⟨found, hcs, .done hm⟩

theorem isSome_after?_missing (h : (after? p cs).isSome = true) (s : CharClass) :
    (after? (.optional s :: p) cs).isSome = true ∧ (after? (.many s :: p) cs).isSome = true := by
  cases cs with
  | nil =>
    rw [after?, after?]
    exact ⟨h, h⟩
  | cons c cs =>
    rw [after?, after?]
    constructor
    · split
      · split
        · rfl
        · exact h
      · exact h
    · split
      · split
        · rfl
        · exact h
      · exact h

theorem isSome_after? (h : p.Matches found) (rest : List Char) :
    (after? p (found ++ rest)).isSome = true := by
  induction h with
  | nil =>
    rw [after?]
    rfl
  | one hc _ ih =>
    rw [List.cons_append, after?, if_pos hc]
    exact ih
  | without _ ih => exact (isSome_after?_missing ih _).1
  | done _ ih => exact (isSome_after?_missing ih _).2
  | once hc _ ih | more hc _ ih =>
    obtain ⟨left, hleft⟩ := Option.isSome_iff_exists.mp ih
    rw [List.cons_append, after?, if_pos hc, hleft]
    rfl

theorem begins_iff : p.Begins cs ↔ (after? p cs).isSome = true := by
  constructor
  · rintro ⟨found, ⟨rest, rfl⟩, hm⟩
    exact isSome_after? hm rest
  · intro h
    obtain ⟨rest, hrest⟩ := Option.isSome_iff_exists.mp h
    obtain ⟨found, rfl, hm⟩ := matches_of_after? hrest
    exact ⟨found, List.prefix_append found rest, hm⟩

theorem occursIn_iff :
    p.OccursIn cs ↔ (cs.tails.any fun rest => (after? p rest).isSome) = true := by
  simp only [List.any_eq_true, List.mem_tails, ← begins_iff]
  constructor
  · rintro ⟨found, hfound, hm⟩
    obtain ⟨rest, hprefix, hsuffix⟩ := List.infix_iff_prefix_suffix.mp hfound
    exact ⟨rest, hsuffix, found, hprefix, hm⟩
  · rintro ⟨rest, hrest, hbegins⟩
    exact hbegins.occursIn hrest

-- ---------------------------------------------------------------------------
-- Striking out
-- ---------------------------------------------------------------------------

theorem struck_replaceAll (hp : ¬p.Matches []) (new cs : List Char) :
    Struck p new cs (replaceAll p new cs) := by
  fun_induction replaceAll p new cs with
  | case1 => exact .nil
  | case2 c cs hnone ih =>
    refine .keep (fun hbegins => ?_) ih
    rw [begins_iff, hnone] at hbegins
    cases hbegins
  | case3 c cs rest hrest hlen ih =>
    obtain ⟨found, hcs, hm⟩ := matches_of_after? hrest
    rw [hcs]
    exact .strike hm ih
  | case4 c cs rest hrest hlen ih =>
    -- Only the empty text leaves so much behind, and it is not of the pattern.
    obtain ⟨found, hcs, hm⟩ := matches_of_after? hrest
    have hlength := congrArg List.length hcs
    rw [List.length_append, List.length_cons] at hlength
    obtain rfl : found = [] := List.length_eq_zero_iff.mp (by omega)
    exact absurd hm hp

theorem prefix_apart (cs : List Char) (hc : c ∉ found) (h : found <+: cs ++ c :: rest) :
    found <+: cs := by
  have hcut : cs ++ [c] <+: cs ++ c :: rest := ⟨rest, by simp⟩
  rcases List.prefix_or_prefix_of_prefix h hcut with hin | hout
  · rcases List.prefix_concat_iff.mp hin with rfl | hin
    · simp at hc
    · exact hin
  · exact absurd (hout.subset (by simp)) hc

theorem infix_apart (cs : List Char) (hc : c ∉ found) (h : found <:+: cs ++ c :: rest) :
    found <:+: cs ∨ found <:+: rest := by
  induction cs with
  | nil =>
    rcases List.infix_cons_iff.mp h with hfront | hrest
    · exact .inl (prefix_apart [] hc hfront).isInfix
    · exact .inr hrest
  | cons d cs ih =>
    rcases List.infix_cons_iff.mp h with hfront | hrest
    · exact .inl (prefix_apart (d :: cs) hc hfront).isInfix
    · rcases ih hrest with hin | hin
      · exact .inl (List.infix_cons_iff.mpr (.inr hin))
      · exact .inr hin

/-- What stands at the beginning without a star was there before, but for an end of it that may
belong to a replacement. -/
theorem Struck.front (h : Struck p (lead ++ stars) cs out) (hstar : '*' ∉ found)
    (hfound : found <+: out) :
    found <+: cs ∨ ∃ before front struck, before ++ struck <+: cs ∧ p.Matches struck ∧
      found = before ++ front ∧ front <+: lead ∧ front ≠ [] := by
  induction h generalizing found with
  | nil => exact .inl hfound
  | @keep c cs out _ _ ih =>
    rcases List.prefix_cons_iff.mp hfound with rfl | ⟨found, rfl, hrest⟩
    · exact .inl List.nil_prefix
    · rcases ih (fun hmem => hstar (List.mem_cons_of_mem c hmem)) hrest with
        hcs | ⟨before, front, struck, hcs, hm, rfl, hfront, hne⟩
      · exact .inl (List.cons_prefix_cons.mpr ⟨rfl, hcs⟩)
      · exact .inr ⟨c :: before, front, struck, List.cons_prefix_cons.mpr ⟨rfl, hcs⟩, hm, rfl,
          hfront, hne⟩
  | @strike struck rest out hm _ _ =>
    rw [List.append_assoc] at hfound
    have hlead : found <+: lead := prefix_apart lead hstar hfound
    cases found with
    | nil => exact .inl List.nil_prefix
    | cons c found =>
      exact .inr ⟨[], c :: found, struck, List.prefix_append struck rest, hm, rfl, hlead,
        List.cons_ne_nil c found⟩

/-- What begins nowhere but where `p` did is gone once `p` is struck out. -/
theorem Struck.not_occurs (h : Struck p (lead ++ stars) cs out) (hq : Harmless q p lead)
    (hcs : ∀ rest, rest <:+ cs → q.Begins rest → p.Begins rest) : ¬q.OccursIn out := by
  induction h with
  | nil =>
    rintro ⟨found, hfound, hm⟩
    exact hq.inside (hfound.trans (List.nil_infix)) hm
  | @keep c cs out hkeep hstruck ih =>
    rintro ⟨found, hfound, hm⟩
    rcases List.infix_cons_iff.mp hfound with hfront | hrest
    · refine hkeep (hcs _ (List.suffix_refl _) ?_)
      rcases (Struck.keep hkeep hstruck).front (hq.unstarred hm) hfront with
        hold | ⟨before, front, struck, hold, hp, rfl, hlead, hne⟩
      · exact ⟨found, hold, hm⟩
      · obtain ⟨rest, hrest⟩ := hold
        rw [← hrest]
        exact (hq.joined hm hlead hne hp).append rest
    · exact ih (fun rest hrest => hcs rest (hrest.trans (List.suffix_cons c cs)))
        ⟨found, hrest, hm⟩
  | @strike struck rest out hp _ ih =>
    rintro ⟨found, hfound, hm⟩
    have hstar := hq.unstarred hm
    rw [List.append_assoc] at hfound
    rcases infix_apart lead hstar hfound with hlead | hfound
    · exact hq.inside hlead hm
    · refine ih (fun rest' hrest => hcs rest' (hrest.trans (List.suffix_append struck rest)))
        ⟨found, ?_, hm⟩
      -- Each of the other stars leaves the text in what follows it, too.
      have hnil : found <:+: [] → found <:+: out := fun h => h.trans (List.nil_infix)
      rcases infix_apart [] hstar hfound with h | h
      · exact hnil h
      · exact (infix_apart [] hstar h).elim hnil id

theorem Struck.eq_self {new : List Char} (h : Struck p new cs out) (hfree : ¬p.OccursIn cs) :
    out = cs := by
  induction h with
  | nil => rfl
  | keep _ _ ih =>
    rw [ih fun ⟨found, hfound, hm⟩ => hfree ⟨found, List.infix_cons_iff.mpr (.inr hfound), hm⟩]
  | @strike found rest out hm _ _ =>
    exact absurd ⟨found, (List.prefix_append found rest).isInfix, hm⟩ hfree

end Pattern

end Tollgate
