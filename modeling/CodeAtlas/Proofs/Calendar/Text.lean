import Mathlib
import CodeAtlas.Proofs.Calendar.Dates
import CodeAtlas.Proofs.Decimal.Digits

/-! Instants are read back from how they are written, for every year that can be read at all. -/
namespace CodeAtlas
namespace Instant

open Decimal

theorem isBlank_of_isDigit {c : Char} (h : c.isDigit = true) : Text.isBlank c = false := by
  obtain ⟨hlow, hhigh⟩ : 48 ≤ c.toNat ∧ c.toNat ≤ 57 := by
    simpa [Char.isDigit, UInt32.le_iff_toNat_le] using h
  have hne : c ≠ ' ' := by
    rintro rfl
    exact absurd h (by decide)
  have hascii : Text.isAscii c = true := by
    simp [Text.isAscii]
    omega
  simp [Text.isBlank, hascii, hne]
  omega

section Padded

variable {width n : Nat}

theorem toList_padded : (padded width n).toList =
    List.replicate (width - (Nat.toDigits 10 n).length) '0' ++ Nat.toDigits 10 n := by
  simp [padded, zeros, ← String.length_toList]

theorem isDigit_of_mem_padded {c : Char} (h : c ∈ (padded width n).toList) : c.isDigit = true := by
  rw [toList_padded, List.mem_append, List.mem_replicate] at h
  rcases h with ⟨_, rfl⟩ | h
  · decide
  · exact isDigit_of_mem h

theorem padded_ne_nil : (padded width n).toList ≠ [] := by
  simp [toList_padded]

theorem digitsValue_padded : Json.digitsValue (padded width n).toList = n := by
  rw [toList_padded, Json.digitsValue_zeros, Json.digitsValue_toDigits]

theorem length_padded (hwidth : 0 < width) (h : n < 10 ^ width) : (padded width n).toList.length = width := by
  have hlen := (Nat.length_toDigits_le_iff (b := 10) (by decide) hwidth).mpr h
  rw [toList_padded, List.length_append, List.length_replicate]
  omega

theorem isDigit_of_padded_eq {rest cs : List Char} {c : Char} (h : (padded width n).toList ++ rest = c :: cs) :
    c.isDigit = true := by
  cases hd : (padded width n).toList with
  | nil => exact absurd hd padded_ne_nil
  | cons d ds =>
    rw [hd, List.cons_append] at h
    obtain ⟨rfl, -⟩ := List.cons.inj h
    have hmem : d ∈ (padded width n).toList := by simp [hd]
    exact isDigit_of_mem_padded hmem

theorem skipBlanks_padded (rest : List Char) :
    skipBlanks ((padded width n).toList ++ rest) = (padded width n).toList ++ rest := by
  cases hd : (padded width n).toList ++ rest with
  | nil => rfl
  | cons c cs =>
    have hc := isBlank_of_isDigit (isDigit_of_padded_eq hd)
    simp [skipBlanks, hc]

/-- A run of digits is read as a whole if it ends there or is as long as it may be. -/
theorem number?_run {most : Nat} {run rest : List Char} (hne : run ≠ []) (hrun : ∀ c ∈ run, c.isDigit = true)
    (hend : run.length = most ∨ run.length ≤ most ∧ Stops Char.isDigit rest) :
    number? most (run ++ rest) = some (Json.digitsValue run, rest) := by
  have htake : ((run ++ rest).take most).takeWhile Char.isDigit = run := by
    rcases hend with rfl | ⟨hle, hstop⟩
    · have hall := takeWhile_run hrun (stops_nil _)
      rw [List.append_nil] at hall
      rw [List.take_left, hall]
    · rw [List.take_append, List.take_of_length_le hle]
      exact takeWhile_run hrun (hstop.take _)
  simp [number?, htake, hne]

theorem number?_padded (hwidth : 0 < width) (h : n < 10 ^ width) (rest : List Char) :
    number? width ((padded width n).toList ++ rest) = some (n, rest) := by
  rw [number?_run padded_ne_nil (fun c hc => isDigit_of_mem_padded hc) (.inl (length_padded hwidth h)),
    digitsValue_padded]

end Padded

theorem skipBlanks_cons {c : Char} (hc : Text.isBlank c = false) (rest : List Char) :
    skipBlanks (c :: rest) = c :: rest := by
  simp [skipBlanks, hc]

theorem mark?_cons {c : Char} (hc : Text.isBlank c = false) (rest : List Char) :
    mark? c (c :: rest) = some rest := by
  simp [mark?, skipBlanks_cons hc]

theorem two?_padded {n : Nat} (h : n < 100) (rest : List Char) :
    two? ((padded 2 n).toList ++ rest) = some (n, rest) := by
  unfold two?
  rw [skipBlanks_padded, number?_padded (by decide) h]

theorem number?_padded_before (width n : Nat) {rest : List Char} (h : Stops Char.isDigit rest) :
    number? ((padded width n).toList ++ rest).length ((padded width n).toList ++ rest) = some (n, rest) := by
  have hrun : ∀ c ∈ (padded width n).toList, c.isDigit = true := fun c hc => isDigit_of_mem_padded hc
  have hlen : (padded width n).toList.length ≤ ((padded width n).toList ++ rest).length := by simp
  rw [number?_run padded_ne_nil hrun (.inr ⟨hlen, h⟩), digitsValue_padded]

/-- Every year is read as it is written, with a mark behind it. -/
theorem year?_yearText (year : Int) (rest : List Char) :
    year? ((yearText year).toList ++ '-' :: rest) = some (year, '-' :: rest) := by
  have hstop : Stops Char.isDigit ('-' :: rest) := stops_cons.mpr (by decide)
  unfold yearText
  split
  · next hshort =>
    have hfit : year.toNat < 10 ^ 4 := by omega
    have hread := number?_padded (by decide : 0 < 4) hfit ('-' :: rest)
    have hcast : (year.toNat : Int) = year := by omega
    unfold year?
    rw [skipBlanks_padded]
    split
    · next h => exact absurd (isDigit_of_padded_eq h) (by decide)
    · next h => exact absurd (isDigit_of_padded_eq h) (by decide)
    · simp [hread, hcast]
  · split
    · next hneg =>
      have hread := number?_padded_before 4 year.natAbs hstop
      have hcast : -(year.natAbs : Int) = year := by omega
      have hminus : Text.isBlank '-' = false := by decide
      have hlist : ("-" ++ padded 4 year.natAbs).toList ++ '-' :: rest =
          '-' :: ((padded 4 year.natAbs).toList ++ '-' :: rest) := by simp
      rw [hlist]
      unfold year?
      rw [skipBlanks_cons hminus]
      simp only [hread, Option.map_some, hcast]
    · next hpos =>
      have hread := number?_padded_before 5 year.toNat hstop
      have hcast : (year.toNat : Int) = year := by omega
      have hplus : Text.isBlank '+' = false := by decide
      have hlist : ("+" ++ padded 5 year.toNat).toList ++ '-' :: rest =
          '+' :: ((padded 5 year.toNat).toList ++ '-' :: rest) := by simp
      rw [hlist]
      unfold year?
      rw [skipBlanks_cons hplus]
      simp only [hread, Option.map_some, hcast]

theorem fraction?_padded {width n : Nat} (hwidth : 0 < width) (h : n < 10 ^ width) (hnine : width ≤ 9)
    (rest : List Char) (hrest : Stops Char.isDigit rest) :
    fraction? (("." ++ padded width n).toList ++ rest) = some (n * 10 ^ (9 - width), rest) := by
  have hrun : ∀ c ∈ (padded width n).toList, c.isDigit = true := fun c hc => isDigit_of_mem_padded hc
  have htake := takeWhile_run hrun hrest
  have hlist : ("." ++ padded width n).toList ++ rest = '.' :: ((padded width n).toList ++ rest) := by simp
  have hlen := length_padded hwidth h
  have hnines : ((padded width n).toList ++ List.replicate 9 '0').take 9 =
      (padded width n).toList ++ List.replicate (9 - width) '0' := by
    rw [List.take_append, hlen, List.take_of_length_le (by omega), List.take_replicate, Nat.min_eq_left (by omega)]
  have hvalue : Json.digitsValue ((padded width n).toList ++ List.replicate (9 - width) '0') =
      n * 10 ^ (9 - width) := by
    rw [Json.digitsValue_eq, Nat.ofDigitChars_append, Nat.ofDigitChars_replicate_zero, ← Json.digitsValue_eq,
      digitsValue_padded, Nat.mul_comm]
  have hne : (padded width n).toList.isEmpty = false := by
    rw [List.isEmpty_eq_false_iff]
    exact padded_ne_nil
  rw [hlist]
  simp only [fraction?, htake, hnines, hvalue, hne, List.drop_left, Bool.false_eq_true, if_false]

/-- The fraction of a second is read as it is written. -/
theorem fraction?_fractionText {nanos : Nat} (h : nanos < 1000000000) (rest : List Char) :
    fraction? ((fractionText nanos).toList ++ 'Z' :: rest) = some (nanos, 'Z' :: rest) := by
  have hstop : Stops Char.isDigit ('Z' :: rest) := stops_cons.mpr (by decide)
  unfold fractionText
  split
  · next hzero => simp [fraction?, hzero]
  · split
    · next hmillis =>
      rw [fraction?_padded (by decide) (by omega) (by decide) _ hstop]
      simp
      omega
    · split
      · next hmicros =>
        rw [fraction?_padded (by decide) (by omega) (by decide) _ hstop]
        simp
        omega
      · rw [fraction?_padded (by decide) (by omega) (by decide) _ hstop]
        simp

/-- The year that an instant lies in. -/
def year (i : Instant) : Int := (dateOf (i / 1000000000 / 86400)).1

/-- Whether the calendar can read the year of an instant. -/
def InCalendar (i : Instant) : Prop := -262143 ≤ i.year ∧ i.year ≤ 262142

/-- The second of a day that some nanoseconds lie in. -/
theorem second_lt (x : Int) : (x / 1000000000 % 86400).toNat < 86400 := by
  omega

/-- A count of nanoseconds by its days, hours, minutes, seconds and the rest. -/
theorem sum_parts {x : Int} {s : Nat} (hs : (x / 1000000000 % 86400).toNat = s) :
    (x / 1000000000 / 86400 * 86400 + (s / 3600 : Nat) * 3600 + (s / 60 % 60 : Nat) * 60 + (s % 60 : Nat) - 0) *
      1000000000 + (x % 1000000000).toNat = x := by
  have hparts : s / 3600 * 3600 + s / 60 % 60 * 60 + s % 60 = s := by omega
  omega

theorem ofParts?_dateOf {i : Instant} (h : i.InCalendar) {month day : Nat}
    (hdate : dateOf (i / 1000000000 / 86400) = (i.year, month, day)) :
    ofParts? i.year month day ((i / 1000000000 % 86400).toNat / 3600)
      ((i / 1000000000 % 86400).toNat / 60 % 60) ((i / 1000000000 % 86400).toNat % 60)
      (i % 1000000000).toNat 0 = some i := by
  have hspec := dateOf_spec (i / 1000000000 / 86400)
  rw [hdate] at hspec
  obtain ⟨⟨hmonth, htwelve, hday, hlast⟩, hnumber⟩ := hspec
  obtain ⟨hfirst, hfinal⟩ := h
  obtain ⟨s, hs⟩ : ∃ s, (i / 1000000000 % 86400).toNat = s := ⟨_, rfl⟩
  have hlt : s < 86400 := hs ▸ second_lt i
  have hsum := sum_parts hs
  rw [hs]
  unfold ofParts?
  rw [if_pos ⟨hfirst, hfinal, hmonth, htwelve, hday, hlast, by omega, by omega, by omega, by decide⟩, hnumber]
  exact congrArg some hsum

theorem monthLength_lt (year : Int) (month : Nat) : monthLength year month < 100 := by
  unfold monthLength
  split
  · split <;> decide
  · split <;> decide

theorem bind_eq_of_eq_some {α β : Type} {o : Option α} {a : α} {f : α → Option β} {b : Option β} (h : o = some a)
    (hf : f a = b) : o >>= f = b := by
  rw [h]
  exact hf

/-- A time is read part by part. -/
theorem read?_of_parts {s : String} {year : Int} {month day hour minute second nanos : Nat}
    {months days hours minutes seconds rest : List Char} (hyear : year? s.toList = some (year, '-' :: months))
    (hmonth : two? months = some (month, '-' :: days)) (hday : two? days = some (day, 'T' :: hours))
    (hhour : two? hours = some (hour, ':' :: minutes)) (hminute : two? minutes = some (minute, ':' :: seconds))
    (hsecond : two? seconds = some (second, rest)) (hnanos : fraction? rest = some (nanos, ['Z'])) :
    read? s = ofParts? year month day hour minute second nanos 0 := by
  have hdash (rest : List Char) : mark? '-' ('-' :: rest) = some rest := mark?_cons (by decide) rest
  have hcolon (rest : List Char) : mark? ':' (':' :: rest) = some rest := mark?_cons (by decide) rest
  have hzone : offset? (skipBlanks ['Z']) = some (0, []) := by decide
  have hend : (skipBlanks []).isEmpty = true := by decide
  -- in the order of the text, with the sign behind each part
  refine bind_eq_of_eq_some hyear ?_
  refine bind_eq_of_eq_some (hdash _) ?_
  refine bind_eq_of_eq_some hmonth ?_
  refine bind_eq_of_eq_some (hdash _) ?_
  refine bind_eq_of_eq_some hday ?_
  refine bind_eq_of_eq_some rfl ?_
  refine bind_eq_of_eq_some hhour ?_
  refine bind_eq_of_eq_some (hcolon _) ?_
  refine bind_eq_of_eq_some hminute ?_
  refine bind_eq_of_eq_some (hcolon _) ?_
  refine bind_eq_of_eq_some hsecond ?_
  refine bind_eq_of_eq_some hnanos ?_
  refine bind_eq_of_eq_some hzone ?_
  exact if_pos hend

/-- An instant is read back from how it is written. -/
theorem read?_text {i : Instant} (h : i.InCalendar) : read? i.text = some i := by
  obtain ⟨month, day, hdate⟩ : ∃ month day, dateOf (i / 1000000000 / 86400) = (i.year, month, day) :=
    ⟨_, _, rfl⟩
  have hspec := dateOf_spec (i / 1000000000 / 86400)
  rw [hdate] at hspec
  have hmonth : month < 100 := Nat.lt_of_le_of_lt hspec.1.month_le (by decide)
  have hday : day < 100 := Nat.lt_of_le_of_lt hspec.1.day_le (monthLength_lt i.year month)
  have hofParts := ofParts?_dateOf h hdate
  have hnanos : (i % 1000000000).toNat < 1000000000 := by omega
  have htext : i.text.toList = (yearText i.year).toList ++ '-' :: ((padded 2 month).toList ++
      '-' :: ((padded 2 day).toList ++ 'T' :: ((padded 2 ((i / 1000000000 % 86400).toNat / 3600)).toList ++
      ':' :: ((padded 2 ((i / 1000000000 % 86400).toNat / 60 % 60)).toList ++
      ':' :: ((padded 2 ((i / 1000000000 % 86400).toNat % 60)).toList ++
      ((fractionText (i % 1000000000).toNat).toList ++ ['Z'])))))) := by
    simp [text, hdate]
  have hhour : (i / 1000000000 % 86400).toNat / 3600 < 100 := by
    have := second_lt i
    omega
  have hminute : (i / 1000000000 % 86400).toNat / 60 % 60 < 100 := by omega
  have hsecond : (i / 1000000000 % 86400).toNat % 60 < 100 := by omega
  rw [read?_of_parts (by rw [htext, year?_yearText]) (two?_padded hmonth _) (two?_padded hday _) (two?_padded hhour _)
    (two?_padded hminute _) (two?_padded hsecond _) (fraction?_fractionText hnanos _)]
  exact hofParts

end Instant
end CodeAtlas
