import Tagwise.Js.Date

/-! What `toISOString` writes before the year 10000 is read back as the same time. -/

namespace Tagwise.Js

/-- The first day of a year of the era; the leap day of the last year ends the era. -/
def yearStart (yearOfEra : Nat) : Nat :=
  365 * yearOfEra + yearOfEra / 4 - yearOfEra / 100 + yearOfEra / 400

/-- The days of the era without its leap days. -/
def plainDays (dayOfEra : Nat) : Nat :=
  dayOfEra - dayOfEra / 1460 + dayOfEra / 36524 - dayOfEra / 146096

theorem plainDays_succ {d : Nat} (h : d + 1 < 146097) : plainDays d ≤ plainDays (d + 1) := by
  unfold plainDays
  omega

theorem plainDays_mono {d e : Nat} (h : d ≤ e) (he : e < 146097) : plainDays d ≤ plainDays e := by
  induction e with
  | zero => exact Nat.le_of_eq (congrArg plainDays (Nat.le_zero.mp h))
  | succ e ih =>
    rcases Nat.lt_or_ge e d with hlt | hle
    · exact Nat.le_of_eq (congrArg plainDays (Nat.le_antisymm h hlt))
    · exact Nat.le_trans (ih hle (by omega)) (plainDays_succ he)

theorem year_ends : ∀ y < 400, yearStart (y + 1) ≤ 146097 ∧ yearStart (y + 1) ≤ yearStart y + 366 ∧
    yearStart y + 365 ≤ yearStart (y + 1) ∧ 365 * y ≤ plainDays (yearStart y) ∧
    plainDays (yearStart (y + 1) - 1) < 365 * (y + 1) := by
  decide +kernel

/-- A day lies in one of the years before the one that starts after it. -/
theorem exists_year {d n : Nat} (h : d < yearStart n) :
    ∃ y < n, yearStart y ≤ d ∧ d < yearStart (y + 1) := by
  induction n with
  | zero => cases h
  | succ n ih =>
    rcases Nat.lt_or_ge d (yearStart n) with hlt | hle
    · obtain ⟨y,hy,hd⟩ := ih hlt
      exact ⟨y,by omega,hd⟩
    · exact ⟨n,by omega,hle,h⟩

/-- The year of a day is what its days without leap days count. -/
theorem year_of_day {d : Nat} (h : d < 146097) :
    plainDays d / 365 < 400 ∧ yearStart (plainDays d / 365) ≤ d ∧
    d < yearStart (plainDays d / 365) + 366 := by
  obtain ⟨y,hy,hstart,hend⟩ := exists_year (n := 400) h
  obtain ⟨hera,hlong,hnext,hlow,hhigh⟩ := year_ends y hy
  have hle := plainDays_mono hstart h
  have hge := plainDays_mono (show d ≤ yearStart (y + 1) - 1 by omega) (by omega)
  have hyear : plainDays d / 365 = y := by omega
  rw [hyear]
  exact ⟨hy,hstart,by omega⟩

theorem daysOfCivil_month {y mp doy : Nat} (era : Nat) (hy : y < 400) (hm : mp < 12)
    (hd : (153 * mp + 2) / 5 ≤ doy) {month : Nat}
    (hmonth : month = if mp < 10 then mp + 3 else mp - 9) :
    daysOfCivil (y + era * 400 + (if month ≤ 2 then 1 else 0)) month
        (doy - (153 * mp + 2) / 5 + 1) =
      era * 146097 + (y * 365 + y / 4 - y / 100 + doy) - 719468 := by
  have hyear : (if month ≤ 2 then y + era * 400 + (if month ≤ 2 then 1 else 0) - 1
      else y + era * 400 + (if month ≤ 2 then 1 else 0)) = y + era * 400 := by
    split <;> simp [*]
  have hmp : (month + 9) % 12 = mp := by
    rw [hmonth]
    split <;> omega
  have hmod : (y + era * 400) % 400 = y := by omega
  have hdiv : (y + era * 400) / 400 = era := by omega
  unfold daysOfCivil
  simp only [hyear, hmp, hmod, hdiv]
  omega

theorem civil_eq {days era d y doy mp month : Nat} (hera : (days + 719468) / 146097 = era)
    (hd : (days + 719468) % 146097 = d) (hy : plainDays d / 365 = y)
    (hdoy : d - (365 * y + y / 4 - y / 100) = doy) (hmp : (5 * doy + 2) / 153 = mp)
    (hmonth : (if mp < 10 then mp + 3 else mp - 9) = month) :
    civil days = (y + era * 400 + (if month ≤ 2 then 1 else 0), month,
      doy - (153 * mp + 2) / 5 + 1) := by
  subst hmonth hmp hdoy hy hd hera
  rfl

theorem daysOfCivil_civil (days : Nat) :
    daysOfCivil (civil days).1 (civil days).2.1 (civil days).2.2 = days := by
  have hsplit := Nat.div_add_mod (days + 719468) 146097
  have hlt : (days + 719468) % 146097 < 146097 := Nat.mod_lt _ (by omega)
  obtain ⟨hy,hstart,hend⟩ := year_of_day hlt
  generalize hera : (days + 719468) / 146097 = era at *
  generalize hd : (days + 719468) % 146097 = d at *
  generalize hyear : plainDays d / 365 = y at *
  have hfirst : yearStart y = 365 * y + y / 4 - y / 100 := by
    unfold yearStart
    omega
  rw [hfirst] at hstart hend
  rw [civil_eq hera hd hyear rfl rfl rfl]
  refine (daysOfCivil_month era hy (by omega) (by omega) rfl).trans ?_
  omega

theorem civil_bounds (days : Nat) : (civil days).2.1 < 100 ∧ (civil days).2.2 < 100 := by
  have hlt : (days + 719468) % 146097 < 146097 := Nat.mod_lt _ (by omega)
  obtain ⟨_,hstart,hend⟩ := year_of_day hlt
  generalize hd : (days + 719468) % 146097 = d at *
  generalize hyear : plainDays d / 365 = y at *
  have hfirst : yearStart y = 365 * y + y / 4 - y / 100 + y / 400 := rfl
  rw [civil_eq rfl hd hyear rfl rfl rfl]
  dsimp only
  constructor
  · split <;> omega
  · omega

/-- The days before 10000-01-01. -/
theorem civil_year {days : Nat} (h : days < 2932897) : (civil days).1 ≤ 9999 := by
  have hlt : (days + 719468) % 146097 < 146097 := Nat.mod_lt _ (by omega)
  obtain ⟨hy,hstart,hend⟩ := year_of_day hlt
  have hsplit := Nat.div_add_mod (days + 719468) 146097
  generalize hera : (days + 719468) / 146097 = era at *
  generalize hd : (days + 719468) % 146097 = d at *
  generalize hyear : plainDays d / 365 = y at *
  rw [civil_eq hera hd hyear rfl rfl rfl]
  dsimp only
  have hera24 : era ≤ 24 := by omega
  by_cases hlast : y = 399 ∧ era = 24
  · -- the last year begins in March 9999, and the days end before its January
    obtain ⟨rfl,rfl⟩ := hlast
    have hmarch : yearStart 399 = 145731 := by decide
    have hmonth : (5 * (d - (365 * 399 + 399 / 4 - 399 / 100)) + 2) / 153 < 10 := by omega
    refine Nat.le_of_eq ?_
    rw [if_pos hmonth, if_neg (by omega)]
  · have hearlier : y + era * 400 ≤ 9998 := by omega
    have hone : ∀ month : Nat, (if month ≤ 2 then 1 else 0) ≤ 1 := by
      intro month
      split <;> omega
    exact Nat.le_trans (Nat.add_le_add_left (hone _) _) (by omega)

theorem foldl_padded (width n : Nat) (h : n < 10 ^ width) :
    (padded width n).foldl (fun m u => m * 10 + (u.toNat - 48)) 0 = n := by
  have hstep : ∀ w m, (padded w n).foldl (fun m u => m * 10 + (u.toNat - 48)) m =
      m * 10 ^ w + n % 10 ^ w := by
    intro w
    induction w with
    | zero => intro m; simp [padded, Nat.mod_one]
    | succ w ih =>
      intro m
      have hcons : padded (w + 1) n = UInt16.ofNat (48 + n / 10 ^ w % 10) :: padded w n := by
        simp [padded, List.range_succ]
      have hdigit : (UInt16.ofNat (48 + n / 10 ^ w % 10)).toNat - 48 = n / 10 ^ w % 10 := by
        have hlt : n / 10 ^ w % 10 < 10 := Nat.mod_lt _ (by decide)
        generalize n / 10 ^ w % 10 = digit at hlt ⊢
        rw [UInt16.toNat_ofNat']
        omega
      rw [hcons, List.foldl_cons, ih, hdigit, Nat.mod_pow_succ, Nat.add_mul, Nat.mul_assoc,
        ← Nat.pow_succ', Nat.mul_comm (10 ^ w), Nat.add_assoc, Nat.add_comm (n % 10 ^ w)]
  rw [hstep width 0, Nat.zero_mul, Nat.zero_add, Nat.mod_eq_of_lt h]

theorem padded_length (width n : Nat) : (padded width n).length = width := by
  simp [padded]

theorem digitsAt_front {width n : Nat} (back : JsString) (h : n < 10 ^ width) :
    digitsAt (padded width n ++ back) 0 width = n := by
  rw [digitsAt, List.drop_zero, List.take_left' (padded_length width n), foldl_padded width n h]

theorem digitsAt_behind {front back : JsString} {start : Nat} (width : Nat)
    (h : front.length ≤ start) :
    digitsAt (front ++ back) start width = digitsAt back (start - front.length) width := by
  rw [digitsAt, List.drop_append, List.drop_eq_nil_of_le h, List.nil_append, digitsAt]

/-- A date before 10000-01-01T00:00:00.000Z is read back. -/
theorem isoTime_toISOString {time : Nat} (hearly : time < 253402300800000) :
    isoTime (toISOString time) = time := by
  have h : (civil (time / msPerDay)).1 ≤ 9999 := by
    apply civil_year
    unfold msPerDay
    omega
  have hdays := daysOfCivil_civil (time / msPerDay)
  obtain ⟨hmonth,hday⟩ := civil_bounds (time / msPerDay)
  have htext : toISOString time = padded 4 (civil (time / msPerDay)).1 ++ (js "-" ++
      (padded 2 (civil (time / msPerDay)).2.1 ++ (js "-" ++
      (padded 2 (civil (time / msPerDay)).2.2 ++ (js "T" ++
      (padded 2 (time / 3600000 % 24) ++ (js ":" ++ (padded 2 (time / 60000 % 60) ++ (js ":" ++
      (padded 2 (time / 1000 % 60) ++ (js "." ++ (padded 3 (time % 1000) ++ js "Z")))))))))))) := by
    unfold toISOString
    simp only [if_pos h, List.append_assoc]
  generalize civil (time / msPerDay) = date at *
  obtain ⟨year,month,day⟩ := date
  generalize toISOString time = text at htext
  have hmark : (js "-").length = 1 ∧ (js "T").length = 1 ∧ (js ":").length = 1 ∧
    (js ".").length = 1 := by decide
  obtain ⟨hdash,ht,hcolon,hdot⟩ := hmark
  dsimp only at *
  rw [isoTime, htext]
  simp (disch := simp [padded_length, hdash, ht, hcolon, hdot]) only [digitsAt_behind,
    padded_length, hdash, ht, hcolon, hdot, Nat.reduceSub]
  rw [digitsAt_front _ (by omega), digitsAt_front _ (by omega), digitsAt_front _ (by omega),
    digitsAt_front _ (by omega), digitsAt_front _ (by omega), digitsAt_front _ (by omega),
    digitsAt_front _ (by omega), hdays]
  unfold msPerDay
  omega

theorem dateTime_toISOString (engine : JsString → Option Int) {time : Nat}
    (h : time < 253402300800000) : dateTime engine (toISOString time) = some (time : Int) := by
  rw [dateTime, isoTime_toISOString h, if_pos rfl]

end Tagwise.Js
