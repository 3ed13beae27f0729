import CodeAtlas.Calendar

/-! The two directions of the calendar agree: every day has a date, and is the day of that date. A day of an era
is known by its century, its cycle of four years, its year and its day of the year. -/
namespace CodeAtlas
namespace Instant

/-- A day of an era by its century, cycle of four years, year of the cycle and day of the year. The last year of
a cycle has a day more, unless it ends a century other than the last. -/
structure EraDay (day century cycle year dayOfYear : Nat) : Prop where
  day_eq : day = 36524 * century + 1461 * cycle + 365 * year + dayOfYear
  century_lt : century < 4
  cycle_lt : cycle < 25
  year_lt : year < 4
  dayOfYear_le : dayOfYear ≤ 365
  leap : dayOfYear = 365 → year = 3 ∧ (cycle = 24 → century = 3)

theorem exists_yearOfCycle {s : Nat} (h : s < 1461) :
    ∃ t d, s = 365 * t + d ∧ t < 4 ∧ d ≤ 365 ∧ (d = 365 → t = 3) := by
  by_cases h1 : s < 365
  · exact ⟨0, s, by omega⟩
  by_cases h2 : s < 730
  · exact ⟨1, s - 365, by omega⟩
  by_cases h3 : s < 1095
  · exact ⟨2, s - 730, by omega⟩
  · exact ⟨3, s - 1095, by omega⟩

theorem exists_century {day : Nat} (h : day < eraDays) :
    ∃ k r, day = 36524 * k + r ∧ k < 4 ∧ r ≤ 36524 ∧ (r = 36524 → k = 3) := by
  unfold eraDays at h
  by_cases h1 : day < 36524
  · exact ⟨0, day, by omega⟩
  by_cases h2 : day < 73048
  · exact ⟨1, day - 36524, by omega⟩
  by_cases h3 : day < 109572
  · exact ⟨2, day - 73048, by omega⟩
  · exact ⟨3, day - 109572, by omega⟩

theorem exists_eraDay {day : Nat} (h : day < eraDays) : ∃ k q t d, EraDay day k q t d := by
  obtain ⟨k, r, rfl, hk, hr, hlast⟩ := exists_century h
  obtain ⟨t, d, hs, ht, hd, hleap⟩ := exists_yearOfCycle (Nat.mod_lt r (by decide : 0 < 1461))
  have hsplit := Nat.div_add_mod r 1461
  generalize r % 1461 = s at hs hsplit
  generalize r / 1461 = q at hsplit
  refine ⟨k, q, t, d, by omega, hk, by omega, ht, hd, fun hday => ⟨hleap hday, fun hq => hlast ?_⟩⟩
  have := hleap hday
  omega

variable {day k q t d : Nat}

theorem EraDay.div_fourYears (h : EraDay day k q t d) :
    ∃ f, day / 1460 = 25 * k + q + f ∧ f ≤ d ∧ d < 365 + f := by
  obtain ⟨hday, hk, hq, ht, hd, hleap⟩ := h
  have hsum : day = 1460 * (25 * k + q) + (24 * k + q + 365 * t + d) := by omega
  have hdiv : day / 1460 = 25 * k + q + (24 * k + q + 365 * t + d) / 1460 := by
    rw [hsum, Nat.mul_add_div (by decide)]
  rw [hdiv]
  by_cases hbig : 1460 ≤ 24 * k + q + 365 * t + d
  · have hone : (24 * k + q + 365 * t + d) / 1460 = 1 := Nat.div_eq_of_lt_le (by omega) (by omega)
    exact ⟨1, by rw [hone], by omega, by omega⟩
  · refine ⟨0, by rw [Nat.div_eq_of_lt (by omega)], Nat.zero_le d, ?_⟩
    rcases Nat.lt_or_eq_of_le hd with hlt | heq
    · exact hlt
    · have := (hleap heq).1
      omega

theorem EraDay.div_century (h : EraDay day k q t d) : day / 36524 = k + day / 146096 := by
  obtain ⟨hday, hk, hq, ht, hd, hleap⟩ := h
  by_cases hend : day = 146096
  · subst hend
    omega
  · have hin : day = 36524 * k + (1461 * q + 365 * t + d) := by omega
    have hshort : day < 146096 := by omega
    have hrest : 1461 * q + 365 * t + d < 36524 := by omega
    rw [Nat.div_eq_of_lt hshort, hin, Nat.mul_add_div (by decide), Nat.div_eq_of_lt hrest]

theorem EraDay.yearOfEra_eq (h : EraDay day k q t d) : yearOfEra day = 100 * k + 4 * q + t := by
  obtain ⟨f, hfour, hle, hlt⟩ := h.div_fourYears
  have hcentury := h.div_century
  obtain ⟨e, rfl⟩ := Nat.exists_eq_add_of_le hle
  have hwhole : day - (25 * k + q + f) = 36499 * k + 1460 * q + 365 * t + e := by
    rw [h.day_eq]
    omega
  have hyear : day - day / 1460 + day / 36524 - day / 146096 = 365 * (100 * k + 4 * q + t) + e := by
    rw [hfour, hcentury, hwhole]
    clear hfour hcentury
    omega
  have hday : e < 365 := by omega
  unfold yearOfEra
  rw [hyear, Nat.mul_add_div (by decide), Nat.div_eq_of_lt hday, Nat.add_zero]

/-- The year of a day begins as many days before it as it is days into the year. -/
theorem EraDay.yearStart_add (h : EraDay day k q t d) : yearStart (yearOfEra day) + d = day := by
  rw [h.yearOfEra_eq]
  obtain ⟨hday, hk, hq, ht, hd, hleap⟩ := h
  have hfour : (100 * k + 4 * q + t) / 4 = 25 * k + q := by omega
  have hundred : (100 * k + 4 * q + t) / 100 = k := by omega
  unfold yearStart
  rw [hfour, hundred]
  omega

theorem marchMonth_spec : ∀ d < 366, marchMonth d < 12 ∧ monthStart (marchMonth d) ≤ d := by
  decide +kernel

/-- The day of the month of every day of a year that is not the leap day. -/
theorem day_le_monthLength : ∀ d < 365,
    d - monthStart (marchMonth d) + 1 ≤ monthLength 1 (calendarMonth (marchMonth d)) := by
  decide +kernel

theorem monthLength_le (year : Int) (month : Nat) : monthLength 1 month ≤ monthLength year month := by
  have hleap : isLeap 1 = false := by decide
  unfold monthLength
  rw [hleap]
  split
  · rw [if_neg (by decide)]
    split <;> decide
  · exact Nat.le_refl _

theorem one_le_calendarMonth {m : Nat} (h : m < 12) : 1 ≤ calendarMonth m ∧ calendarMonth m ≤ 12 := by
  unfold calendarMonth
  split <;> omega

/-- The leap day ends a leap year. -/
theorem EraDay.isLeap (h : EraDay day k q t 365) (era : Int) :
    isLeap ((yearOfEra day : Int) + era * 400 + 1) = true := by
  have hyear := h.yearOfEra_eq
  obtain ⟨hthree, hlast⟩ := h.leap rfl
  have hk := h.century_lt
  have hq := h.cycle_lt
  unfold Instant.isLeap
  simp only [Bool.and_eq_true, Bool.or_eq_true, beq_iff_eq, bne_iff_ne]
  refine ⟨by omega, ?_⟩
  by_cases hcycle : q = 24
  · have := hlast hcycle
    exact .inr (by omega)
  · exact .inl (by omega)

/-- A date that the calendar has. -/
structure IsDate (year : Int) (month day : Nat) : Prop where
  month_pos : 1 ≤ month
  month_le : month ≤ 12
  day_pos : 1 ≤ day
  day_le : day ≤ monthLength year month

theorem EraDay.isDate (h : EraDay day k q t d) (era : Int) :
    IsDate (calendarYear (yearOfEra day + era * 400) (marchMonth d)) (calendarMonth (marchMonth d))
      (d - monthStart (marchMonth d) + 1) := by
  have hd := h.dayOfYear_le
  obtain ⟨hm, hstart⟩ := marchMonth_spec d (by omega)
  obtain ⟨hone, htwelve⟩ := one_le_calendarMonth hm
  refine ⟨hone, htwelve, Nat.le_add_left 1 _, ?_⟩
  rcases Nat.lt_or_eq_of_le hd with hlt | rfl
  · exact Nat.le_trans (day_le_monthLength d hlt) (monthLength_le _ _)
  · have hmonth : marchMonth 365 = 11 := by decide
    have hleap := h.isLeap era
    simp [hmonth, calendarMonth, calendarYear, monthStart, monthLength, hleap]

theorem EraDay.dayNumber_eq (h : EraDay day k q t d) (era : Int) :
    dayNumber (calendarYear (yearOfEra day + era * 400) (marchMonth d)) (calendarMonth (marchMonth d))
      (d - monthStart (marchMonth d) + 1) = era * eraDays + day - epochDay := by
  have hd := h.dayOfYear_le
  have hy : yearOfEra day < 400 := by
    have := h.yearOfEra_eq
    have := h.century_lt
    have := h.cycle_lt
    have := h.year_lt
    omega
  have hsum := h.yearStart_add
  obtain ⟨hm, hstart⟩ := marchMonth_spec d (by omega)
  generalize yearOfEra day = y at hy hsum ⊢
  generalize marchMonth d = m at hm hstart ⊢
  have hmonth : (calendarMonth m + 9) % 12 = m := by
    unfold calendarMonth
    split <;> omega
  have hyear : (if calendarMonth m ≤ 2 then calendarYear ((y : Int) + era * 400) m - 1
      else calendarYear ((y : Int) + era * 400) m) = (y : Int) + era * 400 := by
    unfold calendarYear
    split <;> omega
  have hera : ((y : Int) + era * 400) / 400 = era := by omega
  have hof : (((y : Int) + era * 400) % 400).toNat = y := by omega
  have hday : monthStart m + (d - monthStart m + 1) - 1 = d := by omega
  unfold dayNumber
  simp only [hmonth, hyear, hera, hof, hday, hsum]

/-- Every day has a date, and is the day of that date. -/
theorem dateOf_spec (days : Int) :
    IsDate (dateOf days).1 (dateOf days).2.1 (dateOf days).2.2 ∧
      dayNumber (dateOf days).1 (dateOf days).2.1 (dateOf days).2.2 = days := by
  have hpos : 0 ≤ (days + epochDay) % eraDays := Int.emod_nonneg _ (by decide)
  have hlt : (days + epochDay) % eraDays < eraDays := Int.emod_lt_of_pos _ (by decide)
  have hsplit := Int.mul_ediv_add_emod (days + epochDay) eraDays
  obtain ⟨k, q, t, d, h⟩ : ∃ k q t d, EraDay ((days + epochDay) % eraDays).toNat k q t d :=
    exists_eraDay (by omega)
  have hd : ((days + epochDay) % eraDays).toNat -
      yearStart (yearOfEra ((days + epochDay) % eraDays).toNat) = d := by
    have := h.yearStart_add
    omega
  have hdate : dateOf days = (calendarYear (yearOfEra ((days + epochDay) % eraDays).toNat +
      (days + epochDay) / eraDays * 400) (marchMonth d), calendarMonth (marchMonth d),
      d - monthStart (marchMonth d) + 1) := by
    unfold dateOf
    simp only [hd]
  rw [hdate]
  refine ⟨h.isDate _, ?_⟩
  rw [h.dayNumber_eq, Int.toNat_of_nonneg hpos, Int.mul_comm, hsplit]
  omega

end Instant
end CodeAtlas
