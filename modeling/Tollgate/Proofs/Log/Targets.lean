import Tollgate.Log.Redaction
import Tollgate.Proofs.Log.Striking

/-!
# What redaction leaves of its targets

Three of the patterns are a label with a value behind it, and the label ends in a
sign that no value has (`Labelled`). A replacement is one word and then stars, put
in place of something that begins as a word does too (`Discreet`), so a label that
has the replacement for its value had one before (`Labelled.harmless`). The keys
that have a prefix only are struck out last, by a replacement that is too short to
be one of them. So nothing of these four is left in a message, and the first three
are gone from the moment that their own rule is applied (`redact_clears`).
-/

namespace Tollgate.Redaction

open Pattern

/-- One rule is applied. -/
def strike (cs : List Char) (rule : Pattern × String) : List Char :=
  rule.1.replaceAll rule.2.toList cs

/-- What may stand in front of a value: it ends in a sign that no value has, and has no star. -/
structure IsLabel (label : Pattern) : Prop where
  unstarred : label.Matches found → '*' ∉ found
  ends : label.Matches found → ∃ front sign, found = front ++ [sign] ∧ isKeyChar sign = false

def Labelled (q : Pattern) : Prop := ∃ label, q = label ++ atLeast 1 isKeyChar ∧ IsLabel label

def OneWord (lead : List Char) : Prop :=
  lead.Pairwise fun a b => isKeyChar b = true → isKeyChar a = true

instance (lead : List Char) : Decidable (OneWord lead) :=
  inferInstanceAs (Decidable (List.Pairwise _ _))

/-- What the rule strikes out begins as a value may, and what it puts there is one word and what
comes after it, and then stars. -/
structure Discreet (rule : Pattern × String) : Prop where
  opens : rule.1.Matches found → ∃ c cs, found = c :: cs ∧ isKeyChar c = true
  wording : ∃ lead, rule.2.toList = lead ++ stars ∧ OneWord lead

variable {p q name separator : Pattern} {rule : Pattern × String}
  {applied : List (Pattern × String)} {before cs front lead tail value : List Char}
  {c sign : Char}

theorem toNat_of_isKeyChar (h : isKeyChar c = true) : 45 ≤ c.toNat ∧ c.toNat ≤ 122 := by
  simp only [isKeyChar, isWordChar, isAlphanumeric, Bool.or_eq_true, Bool.and_eq_true,
    decide_eq_true_eq, Char.le_def, UInt32.le_iff_toNat_le] at h
  rcases h with ((((⟨hlo, hhi⟩ | ⟨hlo, hhi⟩) | ⟨hlo, hhi⟩) | rfl) | rfl) | rfl
  · exact ⟨Nat.le_trans (by decide) hlo, Nat.le_trans hhi (by decide)⟩
  · exact ⟨Nat.le_trans (by decide) hlo, hhi⟩
  · exact ⟨Nat.le_trans (by decide) hlo, Nat.le_trans hhi (by decide)⟩
  all_goals decide

theorem isKeyChar_of_isBlank (h : Text.isBlank c = true) : isKeyChar c = false := by
  refine Bool.eq_false_iff.mpr fun hkey => ?_
  have hrange := toNat_of_isKeyChar hkey
  simp [Text.isBlank] at h
  omega

theorem isKeyChar_of_isQuoteMark (h : isQuoteMark c = true) : isKeyChar c = false := by
  simp only [isQuoteMark, Bool.or_eq_true, decide_eq_true_eq] at h
  rcases h with rfl | rfl <;> rfl

theorem isKeyChar_of_isAssignment (h : isAssignment c = true) : isKeyChar c = false := by
  simp only [isAssignment, Bool.or_eq_true, decide_eq_true_eq] at h
  rcases h with rfl | rfl <;> rfl

-- ---------------------------------------------------------------------------
-- Labels
-- ---------------------------------------------------------------------------

theorem isLabel_append
    (hsign : ∀ piece ∈ separator, ∀ c, piece.taken c = true → isKeyChar c = false)
    {s : CharClass} (hone : .one s ∈ separator)
    (hstar : ∀ piece ∈ name ++ separator, piece.taken '*' = false) :
    IsLabel (name ++ separator) where
  unstarred := fun hm hmem => by
    obtain ⟨piece, hpiece, htaken⟩ := hm.taken '*' hmem
    rw [hstar piece hpiece] at htaken
    cases htaken
  ends := fun hm => by
    obtain ⟨before, after, rfl, -, hafter⟩ := matches_append.mp hm
    rcases List.eq_nil_or_concat after with rfl | ⟨front, sign, rfl⟩
    · exact absurd rfl (hafter.ne_nil hone)
    · obtain ⟨piece, hpiece, htaken⟩ := hafter.taken sign (by simp)
      exact ⟨before ++ front, sign, by simp, hsign piece hpiece sign htaken⟩

theorem labelled_assigned (hname : ∀ piece ∈ name, piece.taken '*' = false) :
    Labelled (assigned name isKeyChar) := by
  refine ⟨name ++ [.optional isQuoteMark, .many Text.isBlank, .one isAssignment,
    .many Text.isBlank, .optional isQuoteMark], rfl,
    isLabel_append (s := isAssignment) ?_ (by simp) ?_⟩
  · simp only [List.forall_mem_cons, PatternPiece.taken]
    exact ⟨fun _ => isKeyChar_of_isQuoteMark, fun _ => isKeyChar_of_isBlank,
      fun _ => isKeyChar_of_isAssignment, fun _ => isKeyChar_of_isBlank,
      fun _ => isKeyChar_of_isQuoteMark, nofun⟩
  · exact List.forall_mem_append.mpr ⟨hname, by decide⟩

theorem labelled_bearer : Labelled bearer := by
  refine ⟨literal "Bearer" ++ atLeast 1 Text.isBlank, rfl,
    isLabel_append (s := Text.isBlank) ?_ (by simp [atLeast]) (by decide)⟩
  show ∀ piece ∈ [PatternPiece.one Text.isBlank, .many Text.isBlank], _
  simp only [List.forall_mem_cons, PatternPiece.taken]
  exact ⟨fun _ => isKeyChar_of_isBlank, fun _ => isKeyChar_of_isBlank, nofun⟩

theorem labelled_target (h : q ∈ [bearer, apiKey, tokenKey]) : Labelled q := by
  simp only [List.mem_cons, List.not_mem_nil, or_false] at h
  rcases h with rfl | rfl | rfl
  · exact labelled_bearer
  · exact labelled_assigned (by decide)
  · exact labelled_assigned (by decide)

-- ---------------------------------------------------------------------------
-- Replacements
-- ---------------------------------------------------------------------------

theorem OneWord.eq_nil (h : OneWord lead) (hin : front ++ sign :: value <:+: lead)
    (hsign : isKeyChar sign = false) (hvalue : ∀ c ∈ value, isKeyChar c = true) : value = [] := by
  cases value with
  | nil => rfl
  | cons c value =>
    have hbehind := (List.pairwise_append.mp (h.sublist hin.sublist)).2.1
    have hkey := List.rel_of_pairwise_cons hbehind List.mem_cons_self (hvalue c List.mem_cons_self)
    rw [hsign] at hkey
    cases hkey

/-- Where a label and its value run into one word, the label is over before the word begins. -/
theorem OneWord.value_over (h : OneWord lead) (htail : tail <+: lead)
    (happ : before ++ tail = front ++ sign :: value) (hsign : isKeyChar sign = false)
    (hvalue : ∀ c ∈ value, isKeyChar c = true) (hne : value ≠ []) :
    ∃ taken, before = front ++ sign :: taken ∧ value = taken ++ tail := by
  rcases List.append_eq_append_iff.mp happ with ⟨late, -, rfl⟩ | ⟨early, rfl, hearly⟩
  · exact absurd (h.eq_nil htail.isInfix hsign hvalue) hne
  · cases early with
    | nil =>
      have hin : [] ++ sign :: value <:+: lead := hearly ▸ htail.isInfix
      exact absurd (h.eq_nil hin hsign hvalue) hne
    | cons s taken =>
      obtain ⟨rfl, rfl⟩ := List.cons.inj hearly
      exact ⟨taken, rfl, rfl⟩

theorem IsLabel.apart (h : IsLabel p) (hm : Matches (p ++ atLeast 1 isKeyChar) cs) :
    ∃ front sign value, cs = front ++ sign :: value ∧ p.Matches (front ++ [sign]) ∧
      isKeyChar sign = false ∧ value ≠ [] ∧ ∀ c ∈ value, isKeyChar c = true := by
  obtain ⟨label, value, rfl, hlabel, hvalue⟩ := matches_append.mp hm
  obtain ⟨hlen, hkeys⟩ := matches_atLeast.mp hvalue
  obtain ⟨front, sign, rfl, hsign⟩ := h.ends hlabel
  exact ⟨front, sign, value, by simp, hlabel, hsign, List.ne_nil_of_length_pos hlen, hkeys⟩

theorem Labelled.harmless (hq : Labelled q) (hrule : Discreet rule) (hlead : OneWord lead) :
    Harmless q rule.1 lead := by
  obtain ⟨label, rfl, hlabel⟩ := hq
  refine ⟨fun hm hstar => ?_, fun hin hm => ?_, fun hm hfront _ hstruck => ?_⟩
  · obtain ⟨before, value, rfl, hbefore, hvalue⟩ := matches_append.mp hm
    rcases List.mem_append.mp hstar with hstar | hstar
    · exact hlabel.unstarred hbefore hstar
    · exact absurd ((matches_atLeast.mp hvalue).2 '*' hstar) (by decide)
  · obtain ⟨front, sign, value, rfl, -, hsign, hne, hkeys⟩ := hlabel.apart hm
    exact hne (hlead.eq_nil hin hsign hkeys)
  · obtain ⟨front, sign, value, happ, hmatch, hsign, hvalue, hkeys⟩ := hlabel.apart hm
    obtain ⟨taken, rfl, rfl⟩ := hlead.value_over hfront happ hsign hkeys hvalue
    -- One character of what was struck out is value enough.
    obtain ⟨c, cs, rfl, hc⟩ := hrule.opens hstruck
    have htaken : ∀ d ∈ taken ++ [c], isKeyChar d = true :=
      List.forall_mem_append.mpr ⟨fun d hd => hkeys d (List.mem_append_left _ hd),
        List.forall_mem_singleton.mpr hc⟩
    exact ⟨front ++ [sign] ++ (taken ++ [c]), ⟨cs, by simp⟩, matches_append.mpr
      ⟨_, _, rfl, hmatch, matches_atLeast.mpr ⟨by simp, htaken⟩⟩⟩

theorem Discreet.not_matches_nil (h : Discreet rule) : ¬rule.1.Matches [] := fun hm => by
  obtain ⟨c, cs, hcs, -⟩ := h.opens hm
  cases hcs

/-- A target that is struck out, or was not there, is not there afterwards. -/
theorem Labelled.cleared (hq : Labelled q) (hrule : Discreet rule)
    (hcs : q = rule.1 ∨ ¬q.OccursIn cs) : ¬q.OccursIn (strike cs rule) := by
  obtain ⟨lead, hnew, hlead⟩ := hrule.wording
  have hstruck := struck_replaceAll hrule.not_matches_nil rule.2.toList cs
  rw [hnew] at hstruck
  rw [strike, hnew]
  refine hstruck.not_occurs (hq.harmless hrule hlead) fun rest hrest hbegins => ?_
  rcases hcs with rfl | hfree
  · exact hbegins
  · exact absurd (hbegins.occursIn hrest) hfree

theorem Labelled.gone (hq : Labelled q) (hrules : ∀ rule ∈ applied, Discreet rule)
    (hcs : q ∈ applied.map Prod.fst ∨ ¬q.OccursIn cs) :
    ¬q.OccursIn (applied.foldl strike cs) := by
  induction applied generalizing cs with
  | nil => exact hcs.resolve_left List.not_mem_nil
  | cons rule applied ih =>
    obtain ⟨hrule, hrules⟩ := List.forall_mem_cons.mp hrules
    refine ih hrules ?_
    rcases hcs with hmem | hfree
    · rcases List.mem_cons.mp hmem with hown | hlater
      · exact .inr (hq.cleared hrule (.inl hown))
      · exact .inl hlater
    · exact .inr (hq.cleared hrule (.inr hfree))

-- ---------------------------------------------------------------------------
-- Keys with a prefix
-- ---------------------------------------------------------------------------

theorem matches_secretKey :
    secretKey.Matches cs ↔
      ∃ key, cs = "sk-".toList ++ key ∧ 6 ≤ key.length ∧ ∀ c ∈ key, isWordChar c = true := by
  rw [secretKey, matches_append]
  constructor
  · rintro ⟨before, key, rfl, hbefore, hkey⟩
    exact ⟨key, by rw [matches_literal.mp hbefore], matches_atLeast.mp hkey⟩
  · rintro ⟨key, rfl, hkey⟩
    exact ⟨"sk-".toList, key, rfl, matches_literal.mpr rfl, matches_atLeast.mpr hkey⟩

theorem harmless_secretKey : Harmless secretKey secretKey "sk-".toList := by
  refine ⟨fun hm hstar => ?_, fun hin hm => ?_, fun hm hfront _ hstruck => ?_⟩
  · obtain ⟨key, rfl, -, hkey⟩ := matches_secretKey.mp hm
    rcases List.mem_append.mp hstar with hstar | hstar
    · exact absurd hstar (by decide)
    · exact absurd (hkey '*' hstar) (by decide)
  · obtain ⟨key, rfl, hlen, -⟩ := matches_secretKey.mp hm
    have hle := hin.length_le
    rw [List.length_append] at hle
    omega
  · obtain ⟨key, rfl, -, -⟩ := matches_secretKey.mp hstruck
    exact ⟨_, (List.prefix_append_right_inj _).mpr (hfront.trans (List.prefix_append _ key)), hm⟩

-- ---------------------------------------------------------------------------
-- The rules
-- ---------------------------------------------------------------------------

theorem discreet_of_one {s : CharClass} {new : String} (lead : List Char)
    (hs : ∀ c, s c = true → isKeyChar c = true) (hnew : new.toList = lead ++ stars)
    (hlead : OneWord lead) : Discreet (.one s :: p, new) where
  opens := fun hm => by
    rcases hm with _ | ⟨hc, -⟩
    exact ⟨_, _, rfl, hs _ hc⟩
  wording := ⟨lead, hnew, hlead⟩

theorem discreet_rules : ∀ rule ∈ rules, Discreet rule := by
  have hletter : ∀ a, isKeyChar a = true → ∀ c, decide (c = a) = true → isKeyChar c = true :=
    fun a ha c hc => of_decide_eq_true hc ▸ ha
  simp only [rules, List.forall_mem_cons]
  refine ⟨?_, ?_, ?_, ?_, ?_, ?_, nofun⟩
  · exact discreet_of_one "Bearer ".toList (hletter 'B' rfl) rfl (by decide)
  · exact discreet_of_one "api_key: ".toList (hletter 'a' rfl) rfl (by decide)
  · refine discreet_of_one "authorization: ".toList (fun c hc => ?_) rfl (by decide)
    simp only [Bool.or_eq_true] at hc
    exact hc.elim (hletter 'A' rfl c) (hletter 'a' rfl c)
  · exact discreet_of_one "token_key: ".toList (hletter 't' rfl) rfl (by decide)
  · exact discreet_of_one "password: ".toList (hletter 'p' rfl) rfl (by decide)
  · exact discreet_of_one "sk-".toList (hletter 's' rfl) rfl (by decide)

theorem secretKey_gone (cs : List Char) :
    ¬secretKey.OccursIn (strike cs (secretKey, "sk-***")) := by
  have hdiscreet : Discreet (secretKey, "sk-***") := discreet_rules _ (by simp [rules])
  exact (struck_replaceAll hdiscreet.not_matches_nil _ cs).not_occurs harmless_secretKey
    fun _ _ hbegins => hbegins

theorem foldl_strike_eq_self (hrules : ∀ rule ∈ applied, Discreet rule)
    (hfree : ∀ rule ∈ applied, ¬rule.1.OccursIn cs) : applied.foldl strike cs = cs := by
  induction applied with
  | nil => rfl
  | cons rule applied ih =>
    obtain ⟨hrule, hrules⟩ := List.forall_mem_cons.mp hrules
    obtain ⟨hown, hfree⟩ := List.forall_mem_cons.mp hfree
    have hsame : strike cs rule = cs :=
      (struck_replaceAll hrule.not_matches_nil _ cs).eq_self hown
    rw [List.foldl_cons, hsame, ih hrules hfree]

theorem toList_redact (message : String) :
    (redact message).toList = rules.foldl strike message.toList := String.toList_ofList

/-- A redacted message holds no target: no text of the three patterns that are a label and a value,
which stay away from the moment that they are struck out, and no key that has a prefix only. A
message that none of the patterns occurs in is left as it is. -/
theorem redact_clears (message : String) :
    (∀ q ∈ [bearer, apiKey, tokenKey], ¬q.OccursIn (redact message).toList) ∧
      (∀ key, "sk-".toList ++ key <:+: (redact message).toList →
        (∀ c ∈ key, isWordChar c = true) → key.length < 6) ∧
      (∀ applied later, rules = applied ++ later → ∀ q ∈ [bearer, apiKey, tokenKey],
        q ∈ applied.map Prod.fst → ¬q.OccursIn (applied.foldl strike message.toList)) ∧
      ((∀ rule ∈ rules, ¬rule.1.OccursIn message.toList) → redact message = message) := by
  have hstages : ∀ applied later, rules = applied ++ later → ∀ q ∈ [bearer, apiKey, tokenKey],
      q ∈ applied.map Prod.fst → ¬q.OccursIn (applied.foldl strike message.toList) := by
    intro applied later hrules q hq hmem
    refine (labelled_target hq).gone (fun rule hrule => discreet_rules rule ?_) (.inl hmem)
    exact hrules ▸ List.mem_append_left later hrule
  refine ⟨fun q hq => ?_, fun key hkey hword => ?_, hstages, fun hfree => ?_⟩
  · rw [toList_redact]
    refine hstages rules [] (List.append_nil rules).symm q hq ?_
    simp only [List.mem_cons, List.not_mem_nil, or_false] at hq
    rcases hq with rfl | rfl | rfl <;> simp [rules]
  · refine Nat.lt_of_not_le fun hlen => ?_
    have hgone := secretKey_gone ((rules.take 5).foldl strike message.toList)
    refine hgone ⟨"sk-".toList ++ key, ?_, matches_secretKey.mpr ⟨key, rfl, hlen, hword⟩⟩
    rw [toList_redact] at hkey
    exact hkey
  · refine String.toList_inj.mp ?_
    rw [toList_redact, foldl_strike_eq_self discreet_rules hfree]

/-- Targets that run into each other, and a message that has none but the beginning of one. -/
theorem redact_clears_adjoining :
    redact "Bearer Bearer t api_key:token_key=x sk-abcdesk-abcdef" =
        "Bearer *** t api_key: ***=x sk-***" ∧
      (∀ q ∈ [bearer, apiKey, tokenKey],
        ¬q.OccursIn "Bearer *** t api_key: ***=x sk-***".toList) ∧
      ¬"sk-abcdef".toList <:+: "Bearer *** t api_key: ***=x sk-***".toList ∧
      ¬bearer.OccursIn (strike "Bearer Bearer t api_key:token_key=x sk-abcdesk-abcdef".toList
        (bearer, "Bearer ***")) ∧
      (∀ rule ∈ rules, ¬rule.1.OccursIn "503: api_key".toList) ∧
      redact "503: api_key" = "503: api_key" := by
  have hredact : redact "Bearer Bearer t api_key:token_key=x sk-abcdesk-abcdef" =
      "Bearer *** t api_key: ***=x sk-***" := by
    simp only [redact, redactChars, rules, List.foldl_cons, List.foldl_nil]
    cbv
  have hplain : ∀ rule ∈ rules, ¬rule.1.OccursIn "503: api_key".toList := by
    simp only [occursIn_iff, Bool.not_eq_true]
    have hall : (rules.all fun rule =>
        !("503: api_key".toList.tails.any fun rest => (after? rule.1 rest).isSome)) = true := by
      cbv
    exact fun rule hrule => Bool.not_eq_true' _ |>.mp (List.all_eq_true.mp hall rule hrule)
  obtain ⟨hlabelled, hkey, hstages, -⟩ :=
    redact_clears "Bearer Bearer t api_key:token_key=x sk-abcdesk-abcdef"
  rw [hredact] at hlabelled hkey
  refine ⟨hredact, hlabelled, fun hin => ?_, ?_, hplain, ?_⟩
  · exact absurd (hkey "abcdef".toList hin (List.all_eq_true.mp rfl)) (by decide)
  · exact hstages [(bearer, "Bearer ***")] rules.tail rfl bearer (by simp) (by simp)
  · exact (redact_clears "503: api_key").2.2.2 hplain

end Tollgate.Redaction
