import Tollgate.Json.Printer
import Tollgate.Json.Reader
import Tollgate.Proofs.Text.Integers

/-!
# Values read back

The compact form of a value is read as that same value, alone or as a part of
a longer text (`takeValue?_render`, `read?_render`). This is said of plain
values, in which every string is one and every number an integer: doubles are
written in digits of their own choice.
-/

namespace Tollgate.Json

mutual

def Plain : Json → Prop
  | .null | .bool _ | .number (.integer ..) | .text (some _) => True
  | .list items => PlainItems items
  | .record members => PlainMembers members
  | .number (.decimal ..) | .float _ | .text none => False

def PlainItems : List Json → Prop
  | [] => True
  | v :: rest => v.Plain ∧ PlainItems rest

def PlainMembers : List (Text × Json) → Prop
  | [] => True
  | (k, v) :: rest => k.isSome ∧ v.Plain ∧ PlainMembers rest

end

/-- What may follow a value: nothing, or the sign that it is over. -/
inductive Apart : List Char → Prop
  | nil : Apart []
  | comma (cs : List Char) : Apart (',' :: cs)
  | bracket (cs : List Char) : Apart (']' :: cs)
  | brace (cs : List Char) : Apart ('\x7d' :: cs)

-- ---------------------------------------------------------------------------
-- Numbers
-- ---------------------------------------------------------------------------

theorem eq_nil_of_toDigits {n : Nat} (h : Nat.toDigits 10 n = '0' :: rest) : rest = [] := by
  induction n using Nat.strongRecOn generalizing rest with
  | ind n ih =>
    rw [Nat.toDigits_eq_if (by decide)] at h
    split at h
    · exact (List.cons.inj h).2.symm
    · next hn =>
      obtain ⟨c, cs, hcs⟩ :=
        List.exists_cons_of_ne_nil (Nat.toDigits_ne_nil (n := n / 10) (b := 10))
      rw [hcs, List.cons_append] at h
      obtain ⟨rfl, -⟩ := List.cons.inj h
      have hnil := ih (n / 10) (by omega) hcs
      have hzero := Text.natOfDigits_toDigits (n / 10)
      rw [hcs, hnil] at hzero
      have : Text.natOfDigits ['0'] = 0 := rfl
      omega

/-- With what follows it, no integer would go on. -/
structure EndsInteger (rest : List Char) : Prop where
  keep : rest.takeWhile Text.isDigit = []
  drop : rest.dropWhile Text.isDigit = rest
  fraction : takeFraction? rest = some (none, rest)
  exponent : takeExponent? rest = some (none, rest)

theorem Apart.endsInteger (h : Apart rest) : EndsInteger rest := by
  cases h <;> exact ⟨rfl, rfl, rfl, rfl⟩

theorem takeWhole?_toDigits (n : Nat) (h : EndsInteger rest) :
    takeWhole? (Nat.toDigits 10 n ++ rest) = some (Nat.toDigits 10 n, rest) := by
  have hall : ∀ c ∈ Nat.toDigits 10 n, Text.isDigit c = true :=
    fun c hc => Text.isDigit_of_mem_toDigits hc
  cases hd : Nat.toDigits 10 n with
  | nil => exact absurd hd Nat.toDigits_ne_nil
  | cons c cs =>
    rw [hd] at hall
    rw [takeWhole?.eq_def]
    split
    · next heq =>
      obtain ⟨rfl, rfl⟩ := List.cons.inj heq
      rw [eq_nil_of_toDigits hd]
      rfl
    · next heq =>
      obtain ⟨rfl, rfl⟩ := List.cons.inj heq
      rw [if_pos (hall c (List.mem_cons_self ..)), List.takeWhile_append_of_pos hall,
        List.dropWhile_append_of_pos hall, h.keep, h.drop, List.append_nil]
    · next heq => cases heq

theorem takeUnsigned?_toDigits (negative : Bool) (n : Nat) (h : EndsInteger rest) :
    takeUnsigned? negative (Nat.toDigits 10 n ++ rest) = some (.integer negative n, rest) := by
  simp only [takeUnsigned?, takeWhole?_toDigits n h, h.fraction, h.exponent, Option.bind_eq_bind,
    Option.bind_some, Text.natOfDigits_toDigits]

theorem toList_render_integer (negative : Bool) (n : Nat) :
    (Number.integer negative n).render.toList =
      if negative then '-' :: Nat.toDigits 10 n else Nat.toDigits 10 n := by
  rw [Number.render, String.toList_append]
  cases negative
  · exact Nat.toList_repr
  · exact congrArg ('-' :: ·) Nat.toList_repr

theorem isDigit_head {n : Nat} (h : Nat.toDigits 10 n = c :: cs) : Text.isDigit c = true :=
  Text.isDigit_of_mem_toDigits (h ▸ List.mem_cons_self ..)

theorem head_render_integer (negative : Bool) (n : Nat) :
    ∃ c cs, (Number.integer negative n).render.toList = c :: cs ∧
      (Text.isDigit c = true ∨ c = '-') := by
  rw [toList_render_integer]
  cases negative with
  | true => exact ⟨'-', _, rfl, .inr rfl⟩
  | false =>
    obtain ⟨c, cs, hcs⟩ := List.exists_cons_of_ne_nil (Nat.toDigits_ne_nil (n := n) (b := 10))
    exact ⟨c, cs, hcs, .inl (isDigit_head hcs)⟩

theorem takeNumber?_render (negative : Bool) (n : Nat) (h : EndsInteger rest) :
    takeNumber? ((Number.integer negative n).render.toList ++ rest) =
      some (.integer negative n, rest) := by
  rw [toList_render_integer]
  cases negative with
  | true => exact takeUnsigned?_toDigits true n h
  | false =>
    rw [takeNumber?.eq_def]
    split
    · next cs heq =>
      obtain ⟨c, ds, hds⟩ := List.exists_cons_of_ne_nil (Nat.toDigits_ne_nil (n := n) (b := 10))
      have hc := isDigit_head hds
      obtain ⟨rfl, -⟩ := List.cons.inj ((congrArg (· ++ rest) hds.symm).trans heq)
      simp [Text.isDigit] at hc
    · exact takeUnsigned?_toDigits false n h

theorem isSpace_of_number (hc : Text.isDigit c = true ∨ c = '-') : isSpace c = false := by
  rcases hc with hc | rfl
  · refine Bool.eq_false_iff.mpr fun hs => ?_
    simp only [isSpace, Bool.or_eq_true, decide_eq_true_eq] at hs
    rcases hs with ((rfl | rfl) | rfl) | rfl <;> simp [Text.isDigit] at hc
  · rfl

theorem skipSpace_cons (h : isSpace c = false) (cs : List Char) : skipSpace (c :: cs) = c :: cs :=
  List.dropWhile_cons_of_neg (by simp [h])

theorem takeValue?_of_number (hc : Text.isDigit c = true ∨ c = '-') (fuel : Nat) (cs : List Char) :
    takeValue? (fuel + 1) (c :: cs) =
      (takeNumber? (c :: cs)).map fun (n, rest) => (.number n, rest) := by
  rw [takeValue?.eq_def]
  dsimp only
  rw [skipSpace_cons (isSpace_of_number hc)]
  -- None of the other values starts with a digit or a sign.
  split <;> first
    | rfl
    | next heq =>
      obtain ⟨rfl, -⟩ := List.cons.inj heq
      simp [Text.isDigit] at hc

-- ---------------------------------------------------------------------------
-- Strings
-- ---------------------------------------------------------------------------

theorem unit?_hexDigit {n : Nat} (h : n < 32) :
    unit? '0' '0' (hexDigit (n / 16)) (hexDigit (n % 16)) = some n := by
  have hall : ∀ n < 32, unit? '0' '0' (hexDigit (n / 16)) (hexDigit (n % 16)) = some n := by decide
  exact hall n h

theorem takeUnit_control {c : Char} (h : c.toNat < 32) (rest : List Char) :
    takeUnit c.toNat rest = (.char c, rest) := by
  have hhigh : isHighSurrogate c.toNat = false := by simp [isHighSurrogate]; omega
  have hlow : isLowSurrogate c.toNat = false := by simp [isLowSurrogate]; omega
  rw [takeUnit.eq_def, hhigh, hlow, if_neg Bool.false_ne_true, if_neg Bool.false_ne_true,
    Char.ofNat_toNat]

theorem takePiece?_escapeChar (c : Char) (rest : List Char) :
    takePiece? (escapeChar c ++ rest) = some (.char c, rest) := by
  unfold escapeChar
  iterate 7
    split
    · next h =>
      subst h
      rfl
  split
  · next hcontrol =>
    show (unit? '0' '0' (hexDigit (c.toNat / 16)) (hexDigit (c.toNat % 16))).map
      (takeUnit · rest) = _
    rw [unit?_hexDigit hcontrol, Option.map_some, takeUnit_control hcontrol]
  · rw [takePiece?.eq_def]
    split <;> next heq => cases heq <;> simp_all

theorem length_le_escaped (cs : List Char) : cs.length ≤ (cs.flatMap escapeChar).length := by
  induction cs with
  | nil => exact Nat.le_refl 0
  | cons c cs ih =>
    have hpos : 0 < (escapeChar c).length := by
      unfold escapeChar
      repeat' split
      all_goals exact Nat.succ_pos _
    rw [List.flatMap_cons, List.length_append, List.length_cons]
    omega

theorem takeString?_escaped (cs rest taken : List Char) (hf : cs.length < fuel) :
    takeString? (some taken) fuel (cs.flatMap escapeChar ++ '"' :: rest) =
      some (some (.ofList (taken.reverse ++ cs)), rest) := by
  induction cs generalizing taken fuel with
  | nil =>
    obtain ⟨fuel, rfl⟩ := Nat.exists_eq_succ_of_ne_zero (Nat.ne_of_gt hf)
    rw [List.append_nil]
    rfl
  | cons c cs ih =>
    obtain ⟨fuel, rfl⟩ := Nat.exists_eq_succ_of_ne_zero (Nat.ne_of_gt (Nat.zero_lt_of_lt hf))
    rw [takeString?, List.flatMap_cons, List.append_assoc, takePiece?_escapeChar]
    dsimp only
    rw [Option.map_some, ih (c :: taken) (Nat.lt_of_succ_lt_succ hf), List.reverse_cons,
      List.append_assoc, List.singleton_append]

theorem toList_quote (s : String) :
    (quote s).toList = '"' :: (s.toList.flatMap escapeChar ++ ['"']) := String.toList_ofList

theorem takeString?_quote (s : String) (rest : List Char) :
    ∃ cs, (quote s).toList ++ rest = '"' :: cs ∧
      takeString? (some []) (cs.length + 1) cs = some (some s, rest) := by
  refine ⟨s.toList.flatMap escapeChar ++ '"' :: rest, ?_, ?_⟩
  · rw [toList_quote, List.cons_append, List.append_assoc, List.singleton_append]
  · rw [takeString?_escaped, List.reverse_nil, List.nil_append, String.ofList_toList]
    have := length_le_escaped s.toList
    rw [List.length_append]
    omega

-- ---------------------------------------------------------------------------
-- Values
-- ---------------------------------------------------------------------------

variable {v w : Json} {items : List Json} {m : Text × Json} {members : List (Text × Json)}
  {rest : List Char} {fuel : Nat}

theorem toList_render_list (items : List Json) :
    (list items).render.toList = '[' :: ((renderItems items).toList ++ [']']) := by
  rw [render, String.toList_append, String.toList_append]
  rfl

theorem toList_render_record (members : List (Text × Json)) :
    (record members).render.toList = '\x7b' :: ((renderMembers members).toList ++ ['\x7d']) := by
  rw [render, String.toList_append, String.toList_append]
  rfl

theorem toList_renderItems (v w : Json) (items : List Json) :
    (renderItems (v :: w :: items)).toList =
      v.render.toList ++ ',' :: (renderItems (w :: items)).toList := by
  rw [renderItems, String.toList_append, String.toList_append, List.append_assoc]
  rfl

theorem toList_renderMembers_singleton (k : String) (v : Json) :
    (renderMembers [(some k, v)]).toList = (quote k).toList ++ ':' :: v.render.toList := by
  rw [renderMembers, String.toList_append, String.toList_append, List.append_assoc]
  rfl

theorem toList_renderMembers (k : String) (v : Json) (m : Text × Json)
    (members : List (Text × Json)) :
    (renderMembers ((some k, v) :: m :: members)).toList =
      (quote k).toList ++ ':' :: (v.render.toList ++ ',' :: (renderMembers (m :: members)).toList)
      := by
  rw [renderMembers]
  simp only [String.toList_append, List.append_assoc]
  rfl

theorem head_render (h : Plain v) :
    ∃ c cs, v.render.toList = c :: cs ∧ isSpace c = false ∧ c ≠ ']' := by
  match v, h with
  | .null, _ => exact ⟨'n', _, rfl, rfl, by decide⟩
  | .bool true, _ => exact ⟨'t', _, rfl, rfl, by decide⟩
  | .bool false, _ => exact ⟨'f', _, rfl, rfl, by decide⟩
  | .number (.integer negative n), _ =>
    obtain ⟨c, cs, hcs, hc⟩ := head_render_integer negative n
    refine ⟨c, cs, by rw [render, hcs], isSpace_of_number hc, ?_⟩
    rintro rfl
    simp [Text.isDigit] at hc
  | .text (some s), _ => exact ⟨'"', _, toList_quote s, rfl, by decide⟩
  | .list items, _ => exact ⟨'[', _, toList_render_list items, rfl, by decide⟩
  | .record members, _ => exact ⟨'\x7b', _, toList_render_record members, rfl, by decide⟩

theorem head_renderItems (h : PlainItems (v :: items)) :
    ∃ c cs, (renderItems (v :: items)).toList = c :: cs ∧ isSpace c = false ∧ c ≠ ']' := by
  obtain ⟨c, cs, hcs, hc⟩ := head_render h.1
  cases items with
  | nil => exact ⟨c, cs, by rw [renderItems, hcs], hc⟩
  | cons w items => exact ⟨c, _, by rw [toList_renderItems, hcs, List.cons_append], hc⟩

theorem head_renderMembers (h : PlainMembers (m :: members)) :
    ∃ cs, (renderMembers (m :: members)).toList = '"' :: cs := by
  obtain ⟨_ | k, v⟩ := m
  · cases h.1
  cases members with
  | nil => exact ⟨_, by rw [toList_renderMembers_singleton, toList_quote, List.cons_append]⟩
  | cons m members => exact ⟨_, by rw [toList_renderMembers, toList_quote, List.cons_append]⟩

/-- With so much fuel the reader gets through whatever is short enough for it. -/
structure Reads (fuel : Nat) : Prop where
  value : ∀ {v rest}, Plain v → Apart rest → 2 * v.render.toList.length ≤ fuel →
    takeValue? fuel (v.render.toList ++ rest) = some (v, rest)
  items : ∀ {v items rest}, PlainItems (v :: items) →
    2 * (renderItems (v :: items)).toList.length < fuel →
    takeItems? fuel ((renderItems (v :: items)).toList ++ ']' :: rest) = some (v :: items, rest)
  members : ∀ {m members rest}, PlainMembers (m :: members) →
    2 * (renderMembers (m :: members)).toList.length < fuel →
    takeMembers? fuel ((renderMembers (m :: members)).toList ++ '\x7d' :: rest) =
      some (m :: members, rest)

theorem takeValue?_integer (negative : Bool) (n : Nat) (hrest : EndsInteger rest) :
    takeValue? (fuel + 1) ((number (.integer negative n)).render.toList ++ rest) =
      some (number (.integer negative n), rest) := by
  obtain ⟨c, cs, hcs, hc⟩ := head_render_integer negative n
  have hnumber := takeNumber?_render negative n hrest
  rw [hcs, List.cons_append] at hnumber
  rw [render, hcs, List.cons_append, takeValue?_of_number hc, hnumber]
  rfl

theorem takeValue?_text (s : String) (rest : List Char) :
    takeValue? (fuel + 1) ((text (some s)).render.toList ++ rest) = some (text (some s), rest) := by
  obtain ⟨cs, hcs, hread⟩ := takeString?_quote s rest
  rw [render, Option.getD_some, hcs, takeValue?.eq_def]
  show (takeString? (some []) (cs.length + 1) cs).map _ = _
  rw [hread]
  rfl

theorem Reads.list_succ (ih : Reads fuel) (h : PlainItems items)
    (hf : 2 * (list items).render.toList.length ≤ fuel + 1) :
    takeValue? (fuel + 1) ((list items).render.toList ++ rest) = some (list items, rest) := by
  cases items with
  | nil => rfl
  | cons v items =>
    rw [toList_render_list, List.length_cons, List.length_append] at hf
    obtain ⟨c, cs, hcs, hspace, hclose⟩ := head_renderItems h
    have hitems : takeItems? fuel ((renderItems (v :: items)).toList ++ ']' :: rest) =
        some (v :: items, rest) := ih.items h (by omega)
    rw [hcs, List.cons_append] at hitems
    rw [toList_render_list, hcs]
    simp only [List.cons_append, List.append_assoc, List.nil_append]
    have hopen : skipSpace ('[' :: c :: (cs ++ ']' :: rest)) = '[' :: c :: (cs ++ ']' :: rest) :=
      rfl
    rw [takeValue?.eq_def]
    simp only [hopen, skipSpace_cons hspace]
    split
    · next heq => exact absurd (List.cons.inj heq).1 hclose
    · rw [hitems]
      rfl

theorem Reads.record_succ (ih : Reads fuel) (h : PlainMembers members)
    (hf : 2 * (record members).render.toList.length ≤ fuel + 1) :
    takeValue? (fuel + 1) ((record members).render.toList ++ rest) =
      some (record members, rest) := by
  cases members with
  | nil => rfl
  | cons m members =>
    rw [toList_render_record, List.length_cons, List.length_append] at hf
    obtain ⟨cs, hcs⟩ := head_renderMembers h
    have hmembers : takeMembers? fuel ((renderMembers (m :: members)).toList ++ '\x7d' :: rest) =
        some (m :: members, rest) := ih.members h (by omega)
    rw [hcs, List.cons_append] at hmembers
    rw [toList_render_record, hcs]
    simp only [List.cons_append, List.append_assoc, List.nil_append]
    show (takeMembers? fuel ('"' :: (cs ++ '\x7d' :: rest))).map _ = _
    rw [hmembers]
    rfl

theorem Reads.value_succ (ih : Reads fuel) (h : Plain v) (hrest : Apart rest)
    (hf : 2 * v.render.toList.length ≤ fuel + 1) :
    takeValue? (fuel + 1) (v.render.toList ++ rest) = some (v, rest) := by
  cases v with
  | null => rfl
  | bool b => cases b <;> rfl
  | number n =>
    cases n with
    | integer negative n => exact takeValue?_integer negative n hrest.endsInteger
    | decimal => cases h
  | float => cases h
  | text s =>
    cases s with
    | some s => exact takeValue?_text s rest
    | none => cases h
  | list items => exact ih.list_succ h hf
  | record members => exact ih.record_succ h hf

theorem Reads.items_succ (ih : Reads fuel) (h : PlainItems (v :: items))
    (hf : 2 * (renderItems (v :: items)).toList.length < fuel + 1) :
    takeItems? (fuel + 1) ((renderItems (v :: items)).toList ++ ']' :: rest) =
      some (v :: items, rest) := by
  cases items with
  | nil =>
    rw [renderItems] at *
    rw [takeItems?, ih.value h.1 (.bracket rest) (by omega)]
    rfl
  | cons w items =>
    rw [toList_renderItems] at *
    rw [List.length_append, List.length_cons] at hf
    rw [List.append_assoc, List.cons_append, takeItems?, ih.value h.1 (.comma _) (by omega)]
    show (takeItems? fuel ((renderItems (w :: items)).toList ++ ']' :: rest)).map _ = _
    rw [ih.items h.2 (by omega)]
    rfl

/-- A member is its name and its value; what is behind them tells how the record goes on. -/
theorem Reads.member_succ (ih : Reads fuel) (k : String) (h : Plain v) (hrest : Apart rest)
    (hf : 2 * v.render.toList.length ≤ fuel) :
    takeMembers? (fuel + 1) ((quote k).toList ++ ':' :: (v.render.toList ++ rest)) =
      match skipSpace rest with
      | ',' :: rest => (takeMembers? fuel rest).map fun (ms, rest) => ((some k, v) :: ms, rest)
      | '\x7d' :: rest => some ([(some k, v)], rest)
      | _ => none := by
  obtain ⟨cs, hcs, hkey⟩ := takeString?_quote k (':' :: (v.render.toList ++ rest))
  have hopen : skipSpace ('"' :: cs) = '"' :: cs := rfl
  have hcolon : skipSpace (':' :: (v.render.toList ++ rest)) = ':' :: (v.render.toList ++ rest) :=
    rfl
  rw [hcs, takeMembers?.eq_def]
  simp only [hopen, hkey, hcolon]
  have hvalue := ih.value h hrest hf
  generalize takeValue? fuel (v.render.toList ++ rest) = read at hvalue ⊢
  subst hvalue
  rfl

theorem Reads.members_succ (ih : Reads fuel) (h : PlainMembers (m :: members))
    (hf : 2 * (renderMembers (m :: members)).toList.length < fuel + 1) :
    takeMembers? (fuel + 1) ((renderMembers (m :: members)).toList ++ '\x7d' :: rest) =
      some (m :: members, rest) := by
  obtain ⟨_ | k, v⟩ := m
  · cases h.1
  cases members with
  | nil =>
    rw [toList_renderMembers_singleton] at *
    rw [List.length_append, List.length_cons] at hf
    rw [List.append_assoc, List.cons_append, ih.member_succ k h.2.1 (.brace rest) (by omega)]
    rfl
  | cons n members =>
    rw [toList_renderMembers] at *
    simp only [List.length_append, List.length_cons] at hf
    simp only [List.append_assoc, List.cons_append]
    rw [ih.member_succ k h.2.1 (.comma _) (by omega)]
    show (takeMembers? fuel ((renderMembers (n :: members)).toList ++ '\x7d' :: rest)).map _ = _
    rw [ih.members h.2.2 (by omega)]
    rfl

theorem reads (fuel : Nat) : Reads fuel := by
  induction fuel with
  | zero =>
    refine ⟨fun h _ hf => ?_, fun _ hf => ?_, fun _ hf => ?_⟩
    · obtain ⟨c, cs, hcs, -⟩ := head_render h
      rw [hcs, List.length_cons] at hf
      omega
    · omega
    · omega
  | succ fuel ih => exact ⟨ih.value_succ, ih.items_succ, ih.members_succ⟩

theorem takeValue?_render (h : Plain v) (hrest : Apart rest)
    (hf : 2 * v.render.toList.length ≤ fuel) :
    takeValue? fuel (v.render.toList ++ rest) = some (v, rest) :=
  (reads fuel).value h hrest hf

theorem read?_render (h : Plain v) : read? v.render = some v := by
  have hvalue := takeValue?_render h .nil (Nat.le_add_right (2 * v.render.toList.length) 2)
  rw [List.append_nil] at hvalue
  rw [read?, hvalue]
  rfl

end Tollgate.Json
