import Tollgate.Proofs.Cache.Filling

/-!
# Codecs that lose nothing

What is kept in the cache is read back as what was put there, if it is read at
all: a number past the range of words is written but not read
(`AccountKey.faithful`).
-/

namespace Tollgate

namespace Json

variable {float? : Number → Option Float}

theorem i64?_int (n : Int) :
    ((int n).toDocument float?).i64? = if Word.Fits n then some n else none := by
  show ((Number.integer (n < 0) n.natAbs).int? >>= fun n =>
    if Word.Fits n then some n else none) = _
  rw [int?_integer]
  rfl

theorem i64?_int_eq (h : ((int n).toDocument float?).i64? = some m) : m = n := by
  rw [i64?_int] at h
  split at h
  · exact (Option.some.inj h).symm
  · cases h

end Json

theorem TokenStatus.ofName?_name (s : TokenStatus) : ofName? s.name = some s := by cases s <;> rfl

theorem Token.ofDocument?_toJson {t t' : Token}
    (h : Token.ofDocument? (t.toJson.toDocument float?) = some t') : t' = t := by
  have hfields : Fields.of? fieldNames false (t.toJson.toDocument float?) = some ⟨[
    ("id", (Json.int t.id).toDocument float?),
    ("user_id", (Json.int t.userId).toDocument float?),
    ("key", (Json.str t.key).toDocument float?),
    ("name", (Json.str t.name).toDocument float?),
    ("status", (Json.str t.status.name).toDocument float?),
    ("remain_quota", (Json.int t.remainQuota).toDocument float?),
    ("unlimited_quota", (Json.bool t.unlimited).toDocument float?),
    ("used_quota", (Json.int t.usedQuota).toDocument float?),
    ("expired_time", (Json.int t.expiredTime).toDocument float?)]⟩ := rfl
  rw [ofDocument?, hfields] at h
  simp only [Option.bind_eq_bind, Option.bind_some, Option.bind_eq_some_iff] at h
  obtain ⟨id, hid, userId, huser, key, hkey, name, hname, status, hstatus, remain, hremain,
    unlimited, hunlimited, used, hused, expired, hexpired, h⟩ := h
  obtain rfl := Json.i64?_int_eq hid
  obtain rfl := Json.i64?_int_eq huser
  obtain rfl := Json.i64?_int_eq hremain
  obtain rfl := Json.i64?_int_eq hused
  obtain rfl := Json.i64?_int_eq hexpired
  obtain rfl : t.key = key := Option.some.inj hkey
  obtain rfl : t.name = name := Option.some.inj hname
  obtain rfl : t.unlimited = unlimited := Option.some.inj hunlimited
  obtain rfl : t.status = status :=
    Option.some.inj ((TokenStatus.ofName?_name _).symm.trans hstatus)
  exact (Option.some.inj h).symm

theorem Token.plain_toJson (t : Token) : t.toJson.Plain := by
  simp [toJson, Json.obj, Json.int, Json.str, Json.Plain, Json.PlainMembers]

namespace Codec

/-- A value is read back as itself, if at all. -/
def Faithful (codec : Codec α) : Prop := ∀ v w, codec.decode (codec.encode v) = some w → w = v

theorem decode_encode_ofJson {write : α → Json} (h : (write v).Plain)
    (read? : Document → Option α) :
    (ofJson write read?).decode ((ofJson write read?).encode v) =
      read? ((write v).toDocument Json.Number.float?) := by
  show (Json.readDocument? (write v).render >>= read?) = _
  rw [Json.readDocument?, Json.read?_render h]
  rfl

theorem faithful_word : word.Faithful := fun n m h => by
  have hplain : (Json.int n).Plain := trivial
  rw [word, decode_encode_ofJson hplain] at h
  exact Json.i64?_int_eq h

theorem faithful_flag : flag.Faithful := fun b c h => by
  have hplain : (Json.bool b).Plain := trivial
  rw [flag, decode_encode_ofJson hplain] at h
  exact (Option.some.inj h).symm

theorem faithful_text : text.Faithful := fun s t h => by
  have hplain : (Json.str s).Plain := trivial
  rw [text, decode_encode_ofJson hplain] at h
  exact (Option.some.inj h).symm

theorem faithful_token : token.Faithful := fun t t' h => by
  rw [token, decode_encode_ofJson t.plain_toJson] at h
  exact Token.ofDocument?_toJson h

end Codec

theorem AccountKey.faithful (k : AccountKey) : k.codec.Faithful := by
  cases k with
  | token key => exact Codec.faithful_token
  | userGroup u => exact Codec.faithful_text
  | userEnabled u => exact Codec.faithful_flag
  | userQuota u => exact Codec.faithful_word

end Tollgate
