import Mathlib.Data.List.TakeWhile
import Tollgate.Cache.Aside
import Tollgate.Cache.Key
import Tollgate.Proofs.Text.Rendering

/-!
# Words in the cache

A word is kept in decimal, whoever puts it there, and both ways to read it
back come to the same word: as JSON when it is looked up, as a plain integer
when it is drawn on. A lookup accepts the decimal form alone, with JSON's white
space around it (`decode_word_iff`), where a plain integer may also have a plus
sign and leading zeros.
-/

namespace Tollgate

theorem readWord?_toString (h : Word.Fits n) : readWord? (toString n) = some n := by
  rw [readWord?, Text.trimChars_eq_self fun c hc => Text.isBlank_of_mem_toString hc,
    Text.readSigned?_toString]
  exact if_pos h

namespace Json

theorem int?_integer (n : Int) : (Number.integer (n < 0) n.natAbs).int? = some n := by
  by_cases h : n < 0
  · obtain ⟨m, hm⟩ : ∃ m, n.natAbs = m + 1 := ⟨n.natAbs - 1, by omega⟩
    rw [decide_eq_true h, hm, Number.int?]
    · exact congrArg some (by omega)
    · exact fun hz => by omega
  · rw [decide_eq_false h, Number.int?]
    exact congrArg some (by omega)

theorem render_int (n : Int) : (int n).render = toString n := by
  apply String.toList_inj.mp
  rw [Text.toList_toString, int, render, Number.render, String.toList_append]
  by_cases h : n < 0
  · simp [h, Nat.toList_repr]
  · simp [h, Nat.toList_repr]

-- ---------------------------------------------------------------------------
-- Integers in any spelling
-- ---------------------------------------------------------------------------

theorem takeWhole?_spec (h : takeWhole? cs = some (whole, rest)) :
    cs = whole ++ rest ∧ Nat.toDigits 10 (Text.natOfDigits whole) = whole := by
  rw [takeWhole?.eq_def] at h
  split at h
  · cases h
    exact ⟨rfl, rfl⟩
  · next c cs' hzero =>
    split at h
    · next hc =>
      cases h
      refine ⟨List.takeWhile_append_dropWhile.symm, ?_⟩
      have hdigits : ∀ d ∈ (c :: cs').takeWhile Text.isDigit, Text.isDigit d = true :=
        fun d hd => List.all_eq_true.mp List.all_takeWhile d hd
      rw [List.takeWhile_cons_of_pos hc] at hdigits ⊢
      exact Text.toDigits_natOfDigits hdigits hzero
    · cases h
  · cases h

theorem takeFraction?_none (h : takeFraction? cs = some (none, rest)) : cs = rest := by
  rw [takeFraction?.eq_def] at h
  split at h
  · simp at h
  · cases h
    rfl

theorem takeExponent?_none (h : takeExponent? cs = some (none, rest)) : cs = rest := by
  rw [takeExponent?.eq_def] at h
  split at h
  · simp at h
  · simp at h
  · cases h
    rfl

theorem takeUnsigned?_integer (h : takeUnsigned? negative cs = some (.integer minus n, rest)) :
    minus = negative ∧ cs = Nat.toDigits 10 n ++ rest := by
  simp only [takeUnsigned?, Option.bind_eq_bind, Option.bind_eq_some_iff] at h
  obtain ⟨⟨whole, cs₁⟩, hwhole, ⟨fraction, cs₂⟩, hfraction, ⟨exponent, cs₃⟩, hexponent, h⟩ := h
  obtain ⟨hcs, hdigits⟩ := takeWhole?_spec hwhole
  dsimp only at hfraction hexponent h
  split at h
  · cases h
    obtain rfl := takeFraction?_none hfraction
    obtain rfl := takeExponent?_none hexponent
    exact ⟨rfl, by rw [hdigits, hcs]⟩
  · cases h

theorem takeNumber?_integer (h : takeNumber? cs = some (.integer minus n, rest)) :
    cs = (Number.integer minus n).render.toList ++ rest := by
  rw [toList_render_integer]
  rw [takeNumber?.eq_def] at h
  split at h
  · obtain ⟨rfl, rfl⟩ := takeUnsigned?_integer h
    rfl
  · obtain ⟨rfl, rfl⟩ := takeUnsigned?_integer h
    rfl

theorem takeValue?_number (h : takeValue? fuel cs = some (.number n, rest)) :
    takeNumber? (skipSpace cs) = some (n, rest) := by
  cases fuel with
  | zero => simp [takeValue?] at h
  | succ fuel =>
    rw [takeValue?.eq_def] at h
    dsimp only at h
    split at h
    · cases h
    · cases h
    · cases h
    · obtain ⟨p, -, hp⟩ := Option.map_eq_some_iff.mp h
      cases hp
    · split at h
      · cases h
      · obtain ⟨p, -, hp⟩ := Option.map_eq_some_iff.mp h
        cases hp
    · split at h
      · cases h
      · obtain ⟨p, -, hp⟩ := Option.map_eq_some_iff.mp h
        cases hp
    · obtain ⟨p, hn, hp⟩ := Option.map_eq_some_iff.mp h
      cases hp
      exact hn

theorem int?_toDocument {float? : Number → Option Float} {v : Json}
    (h : (v.toDocument float?).i64? = some k) :
    Word.Fits k ∧ ∃ minus n, v = .number (.integer minus n) ∧
      (Number.integer minus n).int? = some k := by
  obtain ⟨i, hi, hfits⟩ := Option.bind_eq_some_iff.mp h
  split at hfits
  · next hword =>
    cases hfits
    refine ⟨hword, ?_⟩
    cases v with
    | number n =>
      cases n with
      | integer minus n => exact ⟨minus, n, rfl, hi⟩
      | decimal minus whole places exponent => cases hi
    | null | bool _ | float _ | text _ | list _ | record _ => cases hi
  · cases hfits

theorem isBlank_of_isSpace (h : isSpace c = true) : Text.isBlank c = true := by
  simp only [isSpace, Bool.or_eq_true, decide_eq_true_eq] at h
  rcases h with ((rfl | rfl) | rfl) | rfl <;> rfl

theorem skipSpace_eq (cs : List Char) :
    ∃ before, cs = before ++ skipSpace cs ∧ ∀ c ∈ before, isSpace c = true :=
  ⟨cs.takeWhile isSpace, List.takeWhile_append_dropWhile.symm,
    fun c hc => List.all_eq_true.mp List.all_takeWhile c hc⟩

theorem skipSpace_eq_nil_iff : skipSpace cs = [] ↔ ∀ c ∈ cs, isSpace c = true :=
  List.dropWhile_eq_nil_iff

theorem endsInteger_of_spaces (h : ∀ c ∈ cs, isSpace c = true) : EndsInteger cs := by
  cases cs with
  | nil => exact ⟨rfl, rfl, rfl, rfl⟩
  | cons c cs =>
    have hc := h c List.mem_cons_self
    simp only [isSpace, Bool.or_eq_true, decide_eq_true_eq] at hc
    rcases hc with ((rfl | rfl) | rfl) | rfl <;> exact ⟨rfl, rfl, rfl, rfl⟩

/-- A text is one integer if it is what the integer is written as, with white space around it. -/
theorem read?_integer_iff :
    read? raw = some (.number (.integer minus n)) ↔
      ∃ before after, raw.toList = before ++ ((Number.integer minus n).render.toList ++ after) ∧
        (∀ c ∈ before, isSpace c = true) ∧ ∀ c ∈ after, isSpace c = true := by
  rw [read?]
  constructor
  · intro h
    split at h
    · next v rest hvalue =>
      split at h
      · next hrest =>
        cases h
        obtain ⟨before, hbefore, hspaces⟩ := skipSpace_eq raw.toList
        rw [takeNumber?_integer (takeValue?_number hvalue)] at hbefore
        exact ⟨before, rest, hbefore, hspaces,
          skipSpace_eq_nil_iff.mp (List.isEmpty_iff.mp hrest)⟩
      · cases h
    · cases h
  · rintro ⟨before, after, hraw, hbefore, hafter⟩
    have hvalue : takeValue? (2 * raw.toList.length + 1 + 1)
        ((number (.integer minus n)).render.toList ++ after) =
          some (number (.integer minus n), after) :=
      takeValue?_integer minus n (endsInteger_of_spaces hafter)
    have hskip : skipSpace raw.toList =
        skipSpace ((number (.integer minus n)).render.toList ++ after) := by
      rw [hraw]
      exact List.dropWhile_append_of_pos hbefore
    rw [takeValue?.eq_def] at hvalue ⊢
    dsimp only at hvalue ⊢
    rw [hskip, hvalue]
    exact if_pos (List.isEmpty_iff.mpr (skipSpace_eq_nil_iff.mpr hafter))

theorem render_of_int? (h : (Number.integer minus n).int? = some k) :
    minus = decide (k < 0) ∧ n = k.natAbs := by
  rw [Number.int?.eq_def] at h
  split at h
  · next heq =>
    cases heq
    cases h
    exact ⟨rfl, rfl⟩
  · cases h
  · next hzero heq =>
    cases heq
    cases h
    have hpos : n ≠ 0 := fun h0 => hzero (by rw [h0])
    exact ⟨(decide_eq_true (by omega)).symm, by omega⟩
  · cases h

end Json

namespace Codec

theorem encode_word (n : Int) : word.encode n = toString n := Json.render_int n

/-- A lookup reads a word where a text is its decimal form with white space around it. -/
theorem decode_word_iff :
    word.decode raw = some n ↔ Word.Fits n ∧ ∃ before after,
      raw.toList = before ++ ((toString n).toList ++ after) ∧
        (∀ c ∈ before, Json.isSpace c = true) ∧ ∀ c ∈ after, Json.isSpace c = true := by
  constructor
  · intro h
    obtain ⟨d, hd, hk⟩ := Option.bind_eq_some_iff.mp h
    obtain ⟨v, hv, rfl⟩ := Option.map_eq_some_iff.mp hd
    obtain ⟨hfits, minus, m, rfl, hint⟩ := Json.int?_toDocument hk
    obtain ⟨rfl, rfl⟩ := Json.render_of_int? hint
    refine ⟨hfits, ?_⟩
    rw [← Json.render_int]
    exact Json.read?_integer_iff.mp hv
  · rintro ⟨hfits, hraw⟩
    rw [← Json.render_int] at hraw
    show (Json.readDocument? raw >>= Document.i64?) = some n
    rw [Json.readDocument?, Json.read?_integer_iff.mpr hraw]
    show ((Json.Number.integer (n < 0) n.natAbs).int? >>= fun n =>
      if Word.Fits n then some n else none) = some n
    rw [Json.int?_integer]
    exact if_pos hfits

theorem decode_word (h : Word.Fits n) : word.decode (toString n) = some n :=
  decode_word_iff.mpr ⟨h, [], [], (List.append_nil _).symm, nofun, nofun⟩

end Codec

/-- What a lookup reads as a word a draw reads as the same one. -/
theorem readWord?_of_decode (h : Codec.word.decode raw = some k) : readWord? raw = some k := by
  obtain ⟨hfits, before, after, hraw, hbefore, hafter⟩ := Codec.decode_word_iff.mp h
  have htrim : Text.trimChars raw.toList = (toString k).toList := by
    rw [hraw]
    exact Text.trimChars_around (fun c hc => Json.isBlank_of_isSpace (hbefore c hc))
      (fun c hc => Text.isBlank_of_mem_toString hc)
      fun c hc => Json.isBlank_of_isSpace (hafter c hc)
  rw [readWord?, htrim, Text.readSigned?_toString]
  exact if_pos hfits

namespace AccountKey

theorem text_injective {k l : AccountKey} (h : k.text = l.text) : k = l := by
  have hlist := congrArg String.toList h
  cases k <;> cases l <;> simp only [text, String.toList_append] at hlist
  case token.token =>
    rw [String.toList_inj.mp (List.append_cancel_left hlist)]
  case userGroup.userGroup | userEnabled.userEnabled | userQuota.userQuota =>
    rw [Text.toString_injective (String.toList_inj.mp (List.append_cancel_left hlist))]
  -- Keys of two kinds differ within what they begin with.
  all_goals simp at hlist

theorem text_userQuota_inj {u v : Int} (h : (userQuota u).text = (userQuota v).text) : u = v :=
  userQuota.inj (text_injective h)

end AccountKey

end Tollgate
