import Sentry.Proofs.Decimal.Spelling
import Sentry.Proofs.Json.Reading
import Sentry.Trace.Json

/-! A log comes back from its text event for event, whatever its tags hold and
however large its numbers are. So a text in any accepted form is brought into one
form that no longer changes. -/
namespace Sentry.Json

/-! ## Natural numbers -/

/-- The grammar takes digits without a leading zero. -/
theorem spelling_natural (n : ℕ) : Number.isSpelling (toString n).toList = true := by
  have text : (toString n).toList = Nat.toDigits 10 n := Nat.toList_repr
  rw [text]
  rcases n.eq_zero_or_pos with rfl | pos
  · rfl
  have leading := Numeral.toDigits_leading pos
  have digits := Numeral.allDigits_toDigits n
  cases shape : Nat.toDigits 10 n with
  | nil => exact absurd shape Nat.toDigits_ne_nil
  | cons c rest =>
    rw [shape] at leading digits
    obtain ⟨digit, others⟩ := List.forall_mem_cons.mp digits
    have no_zero : c ≠ '0' := by simpa using leading
    have no_sign : c ≠ '-' := by
      rintro rfl
      cases digit
    have whole : Number.afterWhole? (c :: rest) = some [] := by
      have no_rest : rest.dropWhile Char.isDigit = [] := List.dropWhile_eq_nil_iff.mpr others
      simp [Number.afterWhole?, digit, no_rest]
    simp [Number.isSpelling, no_sign, whole, Number.afterFraction?, Number.afterExponent?]

theorem natural_ofNat (n : ℕ) : (Value.ofNat n).natural? = some n := by
  have digits : (Nat.toDigits 10 n).all Char.isDigit = true :=
    List.all_eq_true.mpr (Numeral.allDigits_toDigits n)
  simp [Value.ofNat, Value.natural?, digits, Nat.ofDigitChars_ten_toDigits]

theorem written_record {members : List (String × Value)}
    (each : ∀ member ∈ members, member.2.Written) : (Value.record members).Written := by
  have listed : ∀ field ∈ members.map fun member => (some member.1, member.2),
      (∃ name, field.1 = some name) ∧ Value.Written field.2 := by
    intro field inside
    obtain ⟨member, is_member, rfl⟩ := List.mem_map.mp inside
    exact ⟨⟨member.1, rfl⟩, each member is_member⟩
  exact .object (fun field inside => (listed field inside).1)
    fun field inside => (listed field inside).2

end Sentry.Json

namespace Sentry.Trace
open Json

/-! ## Events -/

/-- No number of 64 bits is too large to be read. -/
theorem word_ofNat (n : UInt64) : word? (.ofNat n.toNat) = some n := by
  simp [word?, natural_ofNat, n.toNat_lt_size]

theorem event_written (event : Event) : event.toJson.Written :=
  written_record <| by
    simp only [List.forall_mem_cons, List.not_mem_nil, false_implies, implies_true, and_true]
    exact ⟨.number (spelling_natural _), .string _, .number (spelling_natural _),
      .number (spelling_natural _)⟩

/-- An event comes back from its value. -/
theorem event_returns (event : Event) : Event.ofJson? event.toJson = some event := by
  have found : fields? ["tick", "tag", "a", "b"] event.toJson =
      some [.ofNat event.tick.toNat, .ofText event.tag, .ofNat event.a.toNat,
        .ofNat event.b.toNat] := rfl
  simp [Event.ofJson?, found, word_ofNat, Value.ofText, Value.text?]

/-! ## Logs -/

theorem events_return (events : List Event) :
    (events.map Event.toJson).mapM Event.ofJson? = some events := by
  induction events with
  | nil => rfl
  | cons event rest ih =>
    rw [List.map_cons, List.mapM_cons, event_returns, ih]
    rfl

theorem log_written (log : Log) : log.toJson.Written :=
  written_record <| by
    simp only [List.forall_mem_cons, List.not_mem_nil, false_implies, implies_true, and_true]
    refine .array ?_
    simpa using fun event _ => event_written event

theorem log_returns (log : Log) : Log.ofJson? log.toJson = some log := by
  have found : fields? ["events"] log.toJson = some [.array (log.events.map Event.toJson)] := rfl
  rw [Log.ofJson?, found]
  change ((log.events.map Event.toJson).mapM Event.ofJson? >>= fun events => some ⟨events⟩) =
    some log
  rw [events_return]
  rfl

/-- Every log comes back from its text. What any text spells is written in a way
that spells the same. -/
theorem logs_survive_text :
    (∀ log : Log, Log.parse? log.render = some log) ∧
      ∀ text log, Log.parse? text = some log → Log.parse? log.render = some log := by
  have survives : ∀ log : Log, Log.parse? log.render = some log := by
    intro log
    rw [Log.parse?, Log.render, parse_render (log_written log)]
    exact log_returns log
  exact ⟨survives, fun _ log _ => survives log⟩

/-- An event listed in order, with a tag of a quote, a backslash, a control
character and one that takes a surrogate pair, and with the largest numbers. -/
theorem listed_event_survives :
    let text := "[[[18446744073709551615, \"\\\"\\\\\\u0001\\ud83d\\ude00\", 0, 18446744073709551615]]]"
    let log : Log := ⟨[⟨18446744073709551615, "\"\\\x01😀", 0, 18446744073709551615⟩]⟩
    Log.parse? text = some log ∧ Log.parse? log.render = some log :=
  have read : Log.parse? _ = some _ := by decide +kernel
  ⟨read, logs_survive_text.2 _ _ read⟩

end Sentry.Trace
