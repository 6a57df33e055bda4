import AnatoliaBis.Auth.Routes

/-! # How long an emailed code lives

`email_code_expiry` writes down the end of the ten minutes without its seconds.
SQLite compares that text with the current time, in which two digits stand where
the text has a dot; a dot sorts before every digit, so the code is over as soon as
the minute of its expiry begins. PostgreSQL reads the missing seconds as zero.
Either way a code may be refused up to a minute early, never accepted late
(`lives_ten_minutes_iff`).
-/

namespace AnatoliaBis.Auth

open TimeText

/-! ## Comparing the stored expiry with the clock -/

/-- The dot in front of the milliseconds sorts before the two digits of the
seconds. -/
theorem millisZ_lt_seconds (t u : Timestamp) :
    millisZ t < Numeral.chars 10 2 (second u) ++ millisZ u := by
  have hdot : ∀ d < 10, '.' < d.digitChar := by decide
  have hhead : Numeral.chars 10 2 (second u) =
      (second u / 10 % 10).digitChar :: Numeral.chars 10 1 (second u) := rfl
  rw [hhead]
  exact List.cons_lt_cons_iff.mpr (Or.inl (hdot _ (Nat.mod_lt _ (by omega))))

/-- A sign sorts before every digit of a year. -/
theorem plus_lt_year (year : Nat) (rest rest' : List Char) :
    '+' :: rest < Numeral.chars 10 4 year ++ rest' := by
  have hplus : ∀ d < 10, '+' < d.digitChar := by decide
  have hhead : Numeral.chars 10 4 year =
      (year / 1000 % 10).digitChar :: Numeral.chars 10 3 year := rfl
  rw [hhead]
  exact List.cons_lt_cons_iff.mpr (Or.inl (hplus _ (Nat.mod_lt _ (by omega))))

/-- How the two texts compare: by their minutes alone. -/
theorem text_lt_iff {c e : Timestamp} {now : String} (hnow : strftime c = some now) :
    now.toList < chronoYear (date e).year ++ minuteTail e (millisZ e) ↔
      (date e).year ≤ maxYear ∧ minute c < minute e := by
  unfold strftime at hnow
  split_ifs at hnow with hc
  rcases Option.some.inj hnow with rfl
  rw [String.toList_ofList, chronoYear]
  by_cases he : (date e).year ≤ maxYear
  · rw [if_pos he, minuteText_lt_iff hc he]
    have hlast : ¬ Numeral.chars 10 2 (second c) ++ millisZ c < millisZ e :=
      List.lt_asymm (millisZ_lt_seconds e c)
    simp only [he, hlast, and_false, or_false, true_and]
  · rw [if_neg he]
    have hplus := List.lt_asymm (plus_lt_year (date c).year
      (Nat.toDigits 10 (date e).year ++ minuteTail e (millisZ e))
      (minuteTail c (Numeral.chars 10 2 (second c) ++ millisZ c)))
    simp only [he, false_and, iff_false]
    exact hplus

/-- Where there is no current time in four digits, no expiry has them either that
would still come. -/
theorem not_minute_lt {c e : Timestamp} (hnow : strftime c = none) :
    ¬ ((date e).year ≤ maxYear ∧ minute c < minute e) := by
  unfold strftime at hnow
  split_ifs at hnow with hc
  rintro ⟨he, hlt⟩
  have hyear : (date c).year ≤ (date e).year :=
    Calendar.Date.ofDays_year_le (Nat.div_le_div_right (Nat.le_of_lt hlt))
  exact hc (Nat.le_trans hyear he)

theorem toList_emailCodeExpiry (s : Timestamp) :
    (emailCodeExpiry s).toList =
      chronoYear (date (s + Timestamp.minutes emailCodeTtlMinutes)).year ++
        minuteTail (s + Timestamp.minutes emailCodeTtlMinutes)
          (millisZ (s + Timestamp.minutes emailCodeTtlMinutes)) :=
  String.toList_ofList

/-- On SQLite the expiry comes after the current time exactly while its minute has
not begun. -/
theorem text_after_iff (s c : Timestamp) :
    (CodeExpiry.text (emailCodeExpiry s)).after c = true ↔
      (date (s + Timestamp.minutes emailCodeTtlMinutes)).year ≤ maxYear ∧
        minute c < minute (s + Timestamp.minutes emailCodeTtlMinutes) := by
  rw [CodeExpiry.after, toList_emailCodeExpiry]
  generalize s + Timestamp.minutes emailCodeTtlMinutes = e
  cases hnow : strftime c with
  | none => simp only [Option.any_none, Bool.false_eq_true, not_minute_lt hnow]
  | some now => simp only [Option.any_some, decide_eq_true_iff, text_lt_iff hnow]

/-- The instant PostgreSQL reads where the seconds are missing. -/
def withoutSeconds (t : Timestamp) : Timestamp := minute t * 60000000000 + milli t * 1000000

theorem withoutSeconds_le (t : Nat) : withoutSeconds t ≤ t := by
  have : t / 60000000000 * 60000000000 + t % 1000000000 / 1000000 * 1000000 ≤ t := by omega
  exact this

/-- Such an instant is a whole number of microseconds, so `NOW()` may as well be
the exact time. -/
theorem truncMicros_lt_withoutSeconds (c t : Nat) :
    Timestamp.truncMicros c < withoutSeconds t ↔ c < withoutSeconds t := by
  have : ∀ n m : Nat, c / 1000 * 1000 < n * 60000000000 + m * 1000000 ↔
      c < n * 60000000000 + m * 1000000 := by omega
  exact this _ _

/-! ## Submitting the code -/

/-- The user's credential holds the code written at `s`, neither consumed nor
superseded. -/
def Server.HoldsCode (p : Platform) (server : Server) (u : Uuid) (codeHash : String)
    (s : Timestamp) : Prop :=
  ∃ row ∈ server.mfaCredentials u, row.method = .email ∧ row.emailCodeHash = some codeHash ∧
    row.emailCodeExpiresAt = some (p.codeExpiry (emailCodeExpiry s))

/-- At the instant `c` both statements that take an emailed code accept it exactly
if the ten minutes from `s` on are not over. -/
def LivesTenMinutes (p : Platform) (server : Server) (u : Uuid) (codeHash : String)
    (s c : Timestamp) : Prop :=
  ((Query.perform p c (.enableEmailMfaCredential u codeHash) server).2 = true ↔
      c < s + Timestamp.minutes emailCodeTtlMinutes) ∧
    ((Query.perform p c (.consumeEmailMfaCode u codeHash) server).2 = true ↔
      c < s + Timestamp.minutes emailCodeTtlMinutes)

/-- Before the expiry as the backend reads it: before its minute begins, or before
that minute's instant without the seconds. -/
def BeforeStoredExpiry (p : Platform) (expiry c : Timestamp) : Prop :=
  match p.backend with
  | .sqlite => (date expiry).year ≤ maxYear ∧ minute c < minute expiry
  | .postgres => c < withoutSeconds expiry

instance (p : Platform) (expiry c : Timestamp) : Decidable (BeforeStoredExpiry p expiry c) := by
  unfold BeforeStoredExpiry
  split <;> infer_instance

/-- The ten minutes are over, or the part of them the stored expiry keeps is not. -/
def ClearOfLostSeconds (p : Platform) (s c : Timestamp) : Prop :=
  s + Timestamp.minutes emailCodeTtlMinutes ≤ c ∨
    BeforeStoredExpiry p (s + Timestamp.minutes emailCodeTtlMinutes) c

/-- PostgreSQL reads the missing seconds of the expiry as zero. -/
def Platform.ReadsExpiry (p : Platform) (s : Timestamp) : Prop :=
  p.backend = .postgres → p.timestamptz (emailCodeExpiry s) =
    withoutSeconds (s + Timestamp.minutes emailCodeTtlMinutes)

section Submit

variable {p : Platform} {server : Server} {u : Uuid} {codeHash : String} {s c : Timestamp}

/-- A new enrollment by e-mail leaves its code behind. -/
theorem holdsCode_upsert (now : Timestamp) :
    (Query.perform p now (.upsertPendingEmailMfaCredential u codeHash (emailCodeExpiry s))
      server).1.HoldsCode p u codeHash s :=
  ⟨_, Function.update_self u _ _, rfl, rfl, rfl⟩

/-- Both statements decide by the stored expiry alone. -/
theorem accepts_iff (h : server.HoldsCode p u codeHash s) :
    ((Query.perform p c (.enableEmailMfaCredential u codeHash) server).2 = true ↔
        (p.codeExpiry (emailCodeExpiry s)).after (p.now c) = true) ∧
      ((Query.perform p c (.consumeEmailMfaCode u codeHash) server).2 = true ↔
        (p.codeExpiry (emailCodeExpiry s)).after (p.now c) = true) := by
  rcases h with ⟨row, hrow, hmethod, hhash, hexpiry⟩
  have haccepts : row.acceptsEmailCode (p.now c) codeHash =
      (p.codeExpiry (emailCodeExpiry s)).after (p.now c) := by
    simp [MfaCredentialRow.acceptsEmailCode, hmethod, hhash, hexpiry]
  simp only [Query.perform, Server.updateMfaCredential, Option.mem_def.mp hrow,
    Option.filter_some, haccepts]
  cases (p.codeExpiry (emailCodeExpiry s)).after (p.now c) <;> simp

/-- When a code is accepted. -/
theorem after_iff (hreads : p.ReadsExpiry s) :
    (p.codeExpiry (emailCodeExpiry s)).after (p.now c) = true ↔
      BeforeStoredExpiry p (s + Timestamp.minutes emailCodeTtlMinutes) c := by
  unfold Platform.ReadsExpiry at hreads
  unfold Platform.codeExpiry Platform.now BeforeStoredExpiry
  cases hbackend : p.backend with
  | postgres =>
      simp only [CodeExpiry.after, hreads hbackend, decide_eq_true_iff]
      exact truncMicros_lt_withoutSeconds _ _
  | sqlite =>
      have hminute : minute c.truncMillis = minute c := by
        have : ∀ n : Nat, n / 1000000 * 1000000 / 60000000000 = n / 60000000000 := by omega
        exact this c
      simp only [text_after_iff, hminute]

/-- A code is never accepted after its ten minutes. -/
theorem before_expiry_of_after (hreads : p.ReadsExpiry s)
    (h : (p.codeExpiry (emailCodeExpiry s)).after (p.now c) = true) :
    c < s + Timestamp.minutes emailCodeTtlMinutes := by
  rw [after_iff hreads] at h
  generalize s + Timestamp.minutes emailCodeTtlMinutes = expiry at h ⊢
  unfold BeforeStoredExpiry at h
  cases hbackend : p.backend with
  | postgres =>
      simp only [hbackend] at h
      exact Nat.lt_of_lt_of_le h (withoutSeconds_le expiry)
  | sqlite =>
      simp only [hbackend] at h
      by_contra hle
      have hminute : minute expiry ≤ minute c := Nat.div_le_div_right (Nat.le_of_not_lt hle)
      exact absurd h.2 (Nat.not_lt_of_le hminute)

/-- **When an emailed code lives ten minutes**: exactly where the submission does
not fall between the expiry as stored and the expiry as meant. -/
theorem lives_ten_minutes_iff (hreads : p.ReadsExpiry s) (h : server.HoldsCode p u codeHash s) :
    LivesTenMinutes p server u codeHash s c ↔ ClearOfLostSeconds p s c := by
  rcases accepts_iff (c := c) h with ⟨henable, hconsume⟩
  have hafter := after_iff (c := c) hreads
  have hearly := before_expiry_of_after (c := c) hreads
  unfold LivesTenMinutes ClearOfLostSeconds
  rw [henable, hconsume, and_self, ← hafter]
  generalize (p.codeExpiry (emailCodeExpiry s)).after (p.now c) = accepted at hearly ⊢
  constructor
  · intro hlives
    rcases Nat.lt_or_ge c (s + Timestamp.minutes emailCodeTtlMinutes) with hlt | hge
    · exact Or.inr (hlives.mpr hlt)
    · exact Or.inl hge
  · rintro (hover | haccepted)
    · exact ⟨hearly, fun hlt => absurd hlt (Nat.not_lt_of_le hover)⟩
    · exact ⟨hearly, fun _ => haccepted⟩

end Submit

/-! ## A code refused early -/

/-- A code written at 01:58:31.250, so good until 02:08:31.250. -/
def sampleMailed (backend : Backend) : Server :=
  (Query.perform (samplePlatform backend) 1111111111250000000 (.upsertPendingEmailMfaCredential 1
    "code-hash" (emailCodeExpiry 1111111111250000000)) sampleServer).1

/-- Half a minute before the end, at 02:08:01.250, both backends refuse the code. -/
theorem code_refused_early :
    ¬ LivesTenMinutes (samplePlatform .sqlite) (sampleMailed .sqlite) 1 "code-hash"
        1111111111250000000 1111111681250000000 ∧
      ¬ LivesTenMinutes (samplePlatform .postgres) (sampleMailed .postgres) 1 "code-hash"
        1111111111250000000 1111111681250000000 := by
  unfold LivesTenMinutes
  constructor
  · decide +kernel
  · decide +kernel

/-- At 02:07:59.999 the code is still accepted. -/
theorem lives_ten_minutes_iff_sample :
    LivesTenMinutes (samplePlatform .postgres) (sampleMailed .postgres) 1 "code-hash"
      1111111111250000000 1111111679999000000 := by
  refine (lives_ten_minutes_iff (fun _ => ?_) (holdsCode_upsert _)).mpr (Or.inr ?_)
  · decide +kernel
  · decide +kernel

end AnatoliaBis.Auth
