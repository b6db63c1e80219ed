import MiniErp.Capacity.SlotSearch
import MiniErp.Lib.Calendar

/-! What the check of the working windows says about the minutes of a slot. It compares the
weekdays and the times of its first and last minute, and a week has the same weekday at both ends. -/
namespace MiniErp.Capacity
open Text

def minuteOfDay (t : Int) : Int := t%86400/60

def weekdayAt (t : Int) : Int := Calendar.weekday (t/86400)

section
variable (profile : ApparatusCapacityProfile)

def inWindow (weekday minute : Int) : Bool :=
  profile.workingWindows.any fun window =>
    window.weekday=weekday && window.startMinute ≤ minute && minute<window.endMinute

def WithinWindows (start stop : Int) : Prop :=
  ∀ t, 60 ∣ t → start≤t → t < stop → inWindow profile (weekdayAt t) (minuteOfDay t)=true

/-- Every minute of the week lies in a window, those apart that a slot shorter than a week leaves
out on the weekday it begins and ends on. -/
def WeekInWindows (start stop : Int) : Prop :=
  ∀ weekday minute, 1≤weekday → weekday≤7 → 0 ≤ minute → minute<1440 →
    inWindow profile weekday minute=true ∨
      stop-start<7*86400 ∧ weekday=weekdayAt start ∧ minuteOfDay stop ≤ minute ∧
        minute < minuteOfDay start

end

section
variable {profile : ApparatusCapacityProfile} {start stop : Int}

theorem fitsWorkingWindow_eq_true (hwindows : profile.workingWindows ≠ []) (hlow : -2^63 ≤ start)
    (hlt : start < stop) (hhigh : stop<2^63) (h : fitsWorkingWindow profile start stop=true) :
    weekdayAt start=weekdayAt (stop-1) ∧ ∃ window∈profile.workingWindows,
    window.weekday=weekdayAt start ∧ window.startMinute ≤ minuteOfDay start ∧
    minuteOfDay (stop-1)<window.endMinute := by
  have hempty : profile.workingWindows.isEmpty=false := by simpa using hwindows
  rw [fitsWorkingWindow,hempty,Bool.false_or,i64_eq_self (by omega) (by omega)] at h
  simp only [fromUnixTimestamp] at h
  split at h
  · rename_i hstart hstop
    split at hstart <;> cases hstart
    split at hstop <;> cases hstop
    simp only [Bool.and_eq_true,decide_eq_true_eq,List.any_eq_true] at h
    obtain ⟨hsame,window,hmem,⟨hweekday,hfirst⟩,hlast⟩ := h
    exact ⟨hsame,window,hmem,hweekday,hfirst,Int.add_one_le_iff.mp hlast⟩
  · cases h

theorem inWindow_of_mem {window : ApparatusWorkingWindow} {weekday minute : Int}
    (hmem : window∈profile.workingWindows) (hweekday : window.weekday=weekday)
    (hfirst : window.startMinute ≤ minute) (hlast : minute<window.endMinute) :
    inWindow profile weekday minute=true := by
  rw [inWindow,List.any_eq_true]
  refine ⟨window,hmem,?_⟩
  simp only [Bool.and_eq_true,decide_eq_true_eq]
  exact ⟨⟨hweekday,hfirst⟩,hlast⟩

/-- A slot within one day lies in the window of its first and last minute. -/
theorem withinWindows_of_day (hwindows : profile.workingWindows ≠ []) (hlow : -2^63 ≤ start)
    (hlt : start < stop) (hhigh : stop<2^63) (hfits : fitsWorkingWindow profile start stop=true)
    (hday : start/86400=(stop-1)/86400) : WithinWindows profile start stop := by
  obtain ⟨-,window,hmem,hweekday,hfirst,hlast⟩ :=
    fitsWorkingWindow_eq_true hwindows hlow hlt hhigh hfits
  intro t _ hstart hstop
  have hsame : t/86400=start/86400 := by omega
  have hweek : weekdayAt t=weekdayAt start := by rw [weekdayAt,weekdayAt,hsame]
  simp only [minuteOfDay] at hfirst hlast
  refine inWindow_of_mem hmem (hweekday.trans hweek.symm) ?_ ?_
  · rw [minuteOfDay]
    omega
  · rw [minuteOfDay]
    omega

theorem withinWindows_of_week (hstart : 60 ∣ start) (hstop : 60 ∣ stop)
    (hsame : weekdayAt start=weekdayAt (stop-1)) (hweek : WeekInWindows profile start stop) :
    WithinWindows profile start stop := by
  intro t ht hfirst hlast
  have hrange : 1≤weekdayAt t ∧ weekdayAt t≤7 := by
    rw [weekdayAt,Calendar.weekday]
    omega
  have hminute : 0 ≤ minuteOfDay t ∧ minuteOfDay t<1440 := by
    rw [minuteOfDay]
    omega
  rcases hweek (weekdayAt t) (minuteOfDay t) hrange.1 hrange.2 hminute.1 hminute.2 with
    hin | ⟨hshort,hweekday,hafter,hbefore⟩
  · exact hin
  · simp only [weekdayAt,Calendar.weekday,minuteOfDay] at hsame hweekday hafter hbefore
    omega

/-- A slot over more than one day passes every minute of the week that it does not leave out. -/
theorem weekInWindows_of_within (hstart : 60 ∣ start) (hlt : start < stop)
    (hsame : weekdayAt start=weekdayAt (stop-1)) (hdays : start/86400≠(stop-1)/86400)
    (h : WithinWindows profile start stop) : WeekInWindows profile start stop := by
  intro weekday minute hfirst hlast hlow hhigh
  have hweek : start/86400+7≤(stop-1)/86400 := by
    simp only [weekdayAt,Calendar.weekday] at hsame
    omega
  have hpass : ∀ day, weekdayAt (day*86400)=weekday → start≤day*86400+minute*60 →
      day*86400+minute*60 < stop → inWindow profile weekday minute=true := by
    intro day hday hafter hbefore
    have hin := h (day*86400+minute*60) (by omega) hafter hbefore
    have hsameDay : (day*86400+minute*60)/86400=day := by omega
    have hminute : minuteOfDay (day*86400+minute*60)=minute := by
      rw [minuteOfDay]
      omega
    have hzero : day*86400/86400=day := by omega
    rw [weekdayAt,hsameDay,hminute] at hin
    rw [weekdayAt,hzero] at hday
    rwa [hday] at hin
  by_cases hweekday : weekday=weekdayAt start
  · by_cases hminute : minuteOfDay start ≤ minute
    · refine .inl (hpass (start/86400) ?_ ?_ ?_)
      · rw [hweekday,weekdayAt,weekdayAt,Int.mul_ediv_cancel _ (by decide)]
      · rw [minuteOfDay] at hminute
        omega
      · omega
    by_cases hbefore : (start/86400+7)*86400+minute*60 < stop
    · refine .inl (hpass (start/86400+7) ?_ ?_ hbefore)
      · rw [hweekday,weekdayAt,weekdayAt]
        simp only [Calendar.weekday]
        omega
      · omega
    · simp only [minuteOfDay] at hminute ⊢
      exact .inr ⟨by omega,hweekday,by omega,by omega⟩
  · -- the days between the first and the same weekday of the next week
    simp only [weekdayAt,Calendar.weekday] at hweekday
    refine .inl (hpass (start/86400+(weekday-1-(start/86400+3))%7) ?_ ?_ ?_)
    · rw [weekdayAt,Calendar.weekday]
      omega
    · omega
    · omega

/-- A slot that fits lies in the windows minute by minute exactly if it begins and ends on one day
or the windows leave out no minute of the week that it passes. -/
theorem fitsWorkingWindow_within_iff (hwindows : profile.workingWindows ≠ [])
    (hlow : -2^63 ≤ start) (hlt : start < stop) (hhigh : stop<2^63) (hstart : 60 ∣ start)
    (hstop : 60 ∣ stop) :
    (fitsWorkingWindow profile start stop=true → WithinWindows profile start stop) ↔
    (fitsWorkingWindow profile start stop=true →
      start/86400=(stop-1)/86400 ∨ WeekInWindows profile start stop) := by
  refine imp_congr_right fun hfits => ?_
  have hsame := (fitsWorkingWindow_eq_true hwindows hlow hlt hhigh hfits).1
  constructor
  · intro hwithin
    by_cases hday : start/86400=(stop-1)/86400
    · exact .inl hday
    · exact .inr (weekInWindows_of_within hstart hlt hsame hday hwithin)
  · rintro (hday | hweek)
    · exact withinWindows_of_day hwindows hlow hlt hhigh hfits hday
    · exact withinWindows_of_week hstart hstop hsame hweek

end

theorem fitsWorkingWindow_within_monday : fitsWorkingWindow mondayProfile 374400 378000=true ∧
      WithinWindows mondayProfile 374400 378000 := by
  have hfits : fitsWorkingWindow mondayProfile 374400 378000=true := by decide +kernel
  have hwindows : mondayProfile.workingWindows ≠ [] := by decide
  have hlt : (374400 : Int)<378000 := by decide
  have hwithin := (fitsWorkingWindow_within_iff hwindows (by decide) hlt (by decide) (by decide)
    (by decide)).mpr fun _ => .inl (by decide)
  exact ⟨hfits,hwithin hfits⟩

-- The request of the sample is evaluated.
attribute [local semireducible] trim

/-- A week and an hour from Monday at eight: proposed, though the apparatus works on Mondays only. -/
theorem findScheduleSlot_outside_windows :
    normalizeScheduleRequest (flexoRequest 374400 10140)=.ok (flexoRequest 374400 10140) ∧
    effectiveDurationMinutes mondayProfile 10140=.ok 10140 ∧
    findScheduleSlot mondayProfile (flexoRequest 374400 10140) mondayProfile.apparatusId 10140
      [] []=.ok (374400, 982800) ∧
    fitsWorkingWindow mondayProfile 374400 982800=true ∧
    ¬ WithinWindows mondayProfile 374400 982800 := by
  refine ⟨rfl,by decide,by decide +kernel,by decide +kernel,fun hwithin => ?_⟩
  have htuesday : inWindow mondayProfile (weekdayAt 475200) (minuteOfDay 475200)=false := by decide
  rw [hwithin 475200 (by decide) (by decide) (by decide)] at htuesday
  cases htuesday

end MiniErp.Capacity
