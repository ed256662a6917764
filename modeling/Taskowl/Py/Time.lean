import Mathlib.Tactic.Ring
import Taskowl.Py.Digits
import Taskowl.Py.Ops

/-!
# Datetimes and timedeltas

An aware UTC datetime is an `Int`, in microseconds since the Unix epoch
(1970-01-01T00:00:00+00:00); a timedelta is a number of microseconds.
Construction and subtraction raise outside the ranges of `timedelta` and
`datetime`. `isoformat` prints the
proleptic Gregorian date, and is injective on the representable range
(`isoformat_inj`).
-/

namespace Taskowl.Py

/-- `datetime.min`, `datetime.max`. -/
def minDatetime : Int := -62135596800000000
def maxDatetime : Int := 253402300799999999

/-- `t` is a representable datetime. -/
def InRange (t : Int) : Prop := minDatetime ≤ t ∧ t ≤ maxDatetime

instance (t : Int) : Decidable (InRange t) := by unfold InRange; infer_instance

/-- The nearest integer, ties to even. -/
def roundHalfEven (q : Rat) : Int :=
  let n := q.floor
  let r := q - n
  if r < 1 / 2 then n else if 1 / 2 < r then n + 1 else if n % 2 = 0 then n else n + 1

def secondUs : Int := 1000000
def dayUs : Int := 86400000000

/-- A timedelta holds at most 999999999 days either way. -/
def mkTimedelta (us : Int) : Except PyErr Int :=
  if -999999999 ≤ us / dayUs ∧ us / dayUs ≤ 999999999 then .ok us
  else .error ⟨.overflowError, s!"days={us / dayUs}; must have magnitude <= 999999999"⟩

theorem mkTimedelta_eq {us delta : Int} (h : mkTimedelta us = .ok delta) : delta = us := by
  unfold mkTimedelta at h
  split at h
  · exact (Except.ok.inj h).symm
  · cases h

/-- `timedelta(seconds=n)`. -/
def secondsInt (n : Int) : Except PyErr Int := mkTimedelta (n * secondUs)

theorem secondsInt_eq {n delta : Int} (h : secondsInt n = .ok delta) : delta = n * secondUs :=
  mkTimedelta_eq h

/-- `timedelta(seconds=v)`. -/
def seconds : Json → Except PyErr Int
  | .int n => secondsInt n
  | .bool b => secondsInt (if b then 1 else 0)
  | .float (.fin q) => mkTimedelta (roundHalfEven (q * secondUs))
  | .float .nan => .error ⟨.valueError, "cannot convert float NaN to integer"⟩
  | .float _ => .error ⟨.overflowError, "cannot convert float infinity to integer"⟩
  | v => .error ⟨.typeError,
      s!"unsupported type for timedelta seconds component: {v.typeName}"⟩

/-- `t - delta`. -/
def subDelta (t : Int) (delta : Int) : Except PyErr Int :=
  if InRange (t - delta) then .ok (t - delta)
  else .error ⟨.overflowError, "date value out of range"⟩

/-- `datetime.fromtimestamp(v, tz=UTC)`. -/
def fromTimestamp : Json → Except PyErr Int
  | .int n => range (n * secondUs)
  | .bool b => range (if b then secondUs else 0)
  | .float (.fin q) => range (roundHalfEven (q * secondUs))
  | .float .nan => .error ⟨.valueError, "cannot convert float NaN to integer"⟩
  | .float _ => .error ⟨.overflowError, "cannot convert float infinity to integer"⟩
  | v => .error ⟨.typeError, s!"'{v.typeName}' object cannot be interpreted as an integer"⟩
where
  range (t : Int) : Except PyErr Int :=
    if InRange t then .ok t else .error ⟨.valueError, "year is out of range"⟩

theorem fromTimestamp_inRange {v : Json} {t : Int} (h : fromTimestamp v = .ok t) :
    InRange t := by
  have key : ∀ {u : Int}, fromTimestamp.range u = .ok t → InRange t := by
    intro u hu
    unfold fromTimestamp.range at hu
    split at hu
    · next hr => cases hu; exact hr
    · cases hu
  unfold fromTimestamp at h
  split at h
  · exact key h
  · exact key h
  · exact key h
  all_goals cases h

/-! ## Calendar -/

def isLeap (year : Nat) : Bool := year % 4 = 0 && (year % 100 != 0 || year % 400 = 0)

def monthLengths (leap : Bool) : List Nat :=
  [31, if leap then 29 else 28, 31, 30, 31, 30, 31, 31, 30, 31, 30, 31]

/-- Month and day of month, from the month lengths, the first month's number and a day index. -/
def monthDay : List Nat → Nat → Nat → Nat × Nat
  | [], month, n => (month, n + 1)
  | len :: lens, month, n => if n < len then (month, n + 1) else monthDay lens (month + 1) (n - len)

/-- Zero-based year and day of year, from a zero-based day number (day 0 is 0001-01-01). -/
def yearDay (n : Nat) : Nat × Nat :=
  let n400 := n / 146097
  let r400 := n % 146097
  let n100 := min 3 (r400 / 36524)
  let r100 := r400 - n100 * 36524
  let n4 := r100 / 1461
  let r4 := r100 % 1461
  let n1 := min 3 (r4 / 365)
  (400 * n400 + 100 * n100 + 4 * n4 + n1, r4 - n1 * 365)

def daysBeforeYear (y : Nat) : Nat := y * 365 + y / 4 - y / 100 + y / 400

theorem daysBeforeYear_parts {a b c d : Nat} (hb : b ≤ 3) (hc : c ≤ 24) (hd : d ≤ 3) :
    daysBeforeYear (400 * a + 100 * b + 4 * c + d) =
      146097 * a + 36524 * b + 1461 * c + 365 * d := by
  have h4 : (400 * a + 100 * b + 4 * c + d) / 4 = 100 * a + 25 * b + c := by omega
  have h100 : (400 * a + 100 * b + 4 * c + d) / 100 = 4 * a + b := by omega
  have h400 : (400 * a + 100 * b + 4 * c + d) / 400 = a := by omega
  unfold daysBeforeYear
  rw [h4, h100, h400]
  omega

/-- The calendar arithmetic of `yearDay` is exact. -/
theorem daysBeforeYear_yearDay (n : Nat) :
    daysBeforeYear (yearDay n).1 + (yearDay n).2 = n ∧ (yearDay n).2 ≤ 365 := by
  simp only [yearDay]
  generalize hr : n % 146097 = r400
  generalize hb : min 3 (r400 / 36524) = b
  have hr100 : r400 - b * 36524 ≤ 36524 := by omega
  generalize hq : r400 - b * 36524 = r100 at hr100
  have hr4 : r100 % 1461 < 1461 := Nat.mod_lt _ (by decide)
  have hdiv : r100 / 1461 * 1461 + r100 % 1461 = r100 := Nat.div_add_mod' ..
  generalize r100 % 1461 = r4 at *
  rw [daysBeforeYear_parts (by omega) (by omega) (Nat.min_le_left ..)]
  omega

theorem monthDay_month_ge (lens : List Nat) (month n : Nat) :
    month ≤ (monthDay lens month n).1 := by
  induction lens generalizing month n with
  | nil => exact Nat.le_refl _
  | cons len lens ih =>
    unfold monthDay
    split
    · exact Nat.le_refl _
    · have := ih (month + 1) (n - len); omega

theorem monthDay_inj {lens : List Nat} {month m n : Nat}
    (h : monthDay lens month m = monthDay lens month n) : m = n := by
  induction lens generalizing month m n with
  | nil => simpa [monthDay] using h
  | cons len lens ih =>
    unfold monthDay at h
    split at h <;> split at h
    · simpa using h
    · have := monthDay_month_ge lens (month + 1) (n - len)
      rw [← h] at this; simp only at this; omega
    · have := monthDay_month_ge lens (month + 1) (m - len)
      rw [h] at this; simp only at this; omega
    · have := ih h; omega

theorem monthDay_bound (month : Nat) {lens : List Nat} {n b : Nat} (h : n < lens.sum + b)
    (hl : ∀ l ∈ lens, l ≤ 31) (hb : b ≤ 31) :
    (monthDay lens month n).1 ≤ month + lens.length ∧ (monthDay lens month n).2 ≤ 31 := by
  induction lens generalizing month n with
  | nil => simp only [List.sum_nil] at h; simp only [monthDay, List.length_nil]; omega
  | cons len lens ih =>
    unfold monthDay
    have hlen := hl len List.mem_cons_self
    rw [List.sum_cons] at h
    split
    · simp only [List.length_cons]; omega
    · have := ih (month + 1) (by omega : n - len < lens.sum + b)
        fun l hl' => hl l (List.mem_cons_of_mem _ hl')
      simp only [List.length_cons]; omega

theorem monthLengths_le (leap : Bool) : ∀ l ∈ monthLengths leap, l ≤ 31 := by
  cases leap <;> decide

/-! ## `isoformat` -/

structure Fields where
  year : Nat
  month : Nat
  day : Nat
  hour : Nat
  minute : Nat
  second : Nat
  micro : Nat
  deriving DecidableEq, Repr

/-- Days from 0001-01-01 to 1970-01-01. -/
def epochDays : Int := 719162

def fields (t : Int) : Fields :=
  let days := (t / dayUs + epochDays).toNat
  let us := (t % dayUs).toNat
  let yd := yearDay days
  let md := monthDay (monthLengths (isLeap (yd.1 + 1))) 1 yd.2
  { year := yd.1 + 1, month := md.1, day := md.2,
    hour := us / 3600000000, minute := us / 60000000 % 60, second := us / 1000000 % 60,
    micro := us % 1000000 }

/-- The microsecond part, left out when it is zero. -/
def microPart (micro : Nat) : List Char := if micro = 0 then [] else '.' :: pad 10 6 micro

def Fields.chars (f : Fields) : List Char :=
  pad 10 4 f.year ++ '-' :: pad 10 2 f.month ++ '-' :: pad 10 2 f.day ++ 'T' :: pad 10 2 f.hour ++
    ':' :: pad 10 2 f.minute ++ ':' :: pad 10 2 f.second ++ microPart f.micro ++
    ['+', '0', '0', ':', '0', '0']

/-- `t.isoformat()`. -/
def isoformat (t : Int) : String := String.ofList (fields t).chars

example : isoformat 1704164645000250 = "2024-01-02T03:04:05.000250+00:00" := by decide
example : isoformat 0 = "1970-01-01T00:00:00+00:00" := by decide

structure Fields.Fits (f : Fields) : Prop where
  year : f.year < 10 ^ 4
  month : f.month < 10 ^ 2
  day : f.day < 10 ^ 2
  hour : f.hour < 10 ^ 2
  minute : f.minute < 10 ^ 2
  second : f.second < 10 ^ 2
  micro : f.micro < 10 ^ 6

theorem fields_fits {t : Int} (h : InRange t) : (fields t).Fits := by
  obtain ⟨h1, h2⟩ := h
  unfold minDatetime at h1
  unfold maxDatetime at h2
  have hdays : (t / dayUs + epochDays).toNat < 3652059 := by unfold dayUs epochDays; omega
  have hus : (t % dayUs).toNat < 86400000000 := by unfold dayUs; omega
  obtain ⟨hyd, hle⟩ := daysBeforeYear_yearDay (t / dayUs + epochDays).toNat
  have hy : (yearDay (t / dayUs + epochDays).toNat).1 < 9999 := by
    unfold daysBeforeYear at hyd
    omega
  have hmd : ∀ leap y, y ≤ 365 → (monthDay (monthLengths leap) 1 y).1 ≤ 13 ∧
      (monthDay (monthLengths leap) 1 y).2 ≤ 31 := by
    intro leap y hy
    have hsum : ∀ leap, 365 ≤ (monthLengths leap).sum := by decide
    have := hsum leap
    exact monthDay_bound 1 (b := 1) (by omega) (monthLengths_le _) (by decide)
  have := hmd (isLeap ((yearDay (t / dayUs + epochDays).toNat).1 + 1)) _ hle
  constructor <;> simp only [fields] <;> omega

theorem fields_inj {s t : Int} (hs : InRange s) (ht : InRange t) (h : fields s = fields t) :
    s = t := by
  simp only [fields, Fields.mk.injEq] at h
  obtain ⟨hy, hm, hd, hh, hmi, hse, hmu⟩ := h
  have hyear : (yearDay (s / dayUs + epochDays).toNat).1 =
      (yearDay (t / dayUs + epochDays).toNat).1 := by
    omega
  have hday : (yearDay (s / dayUs + epochDays).toNat).2 =
      (yearDay (t / dayUs + epochDays).toNat).2 := by
    rw [hyear] at hm hd
    exact monthDay_inj (Prod.ext hm hd)
  have e1 := (daysBeforeYear_yearDay (s / dayUs + epochDays).toNat).1
  have e2 := (daysBeforeYear_yearDay (t / dayUs + epochDays).toNat).1
  rw [hyear, hday, e2] at e1
  obtain ⟨hs1, hs2⟩ := hs
  obtain ⟨ht1, ht2⟩ := ht
  simp only [minDatetime, maxDatetime, dayUs, epochDays] at *
  omega

theorem Fields.chars_inj {f g : Fields} (hf : f.Fits) (hg : g.Fits) (h : f.chars = g.chars) :
    f = g := by
  have inj : ∀ {w m n}, m < 10 ^ w → n < 10 ^ w → pad 10 w m = pad 10 w n → m = n :=
    pad_inj (by decide) (by decide)
  simp only [Fields.chars, List.append_assoc, List.cons_append] at h
  obtain ⟨hy, h⟩ := List.append_inj h (by simp)
  rw [List.cons.injEq] at h
  obtain ⟨hm, h⟩ := List.append_inj h.2 (by simp)
  rw [List.cons.injEq] at h
  obtain ⟨hd, h⟩ := List.append_inj h.2 (by simp)
  rw [List.cons.injEq] at h
  obtain ⟨hh, h⟩ := List.append_inj h.2 (by simp)
  rw [List.cons.injEq] at h
  obtain ⟨hmi, h⟩ := List.append_inj h.2 (by simp)
  rw [List.cons.injEq] at h
  obtain ⟨hse, h⟩ := List.append_inj h.2 (by simp)
  obtain ⟨hmu, -⟩ := List.append_inj' h rfl
  have hmicro : f.micro = g.micro := by
    unfold microPart at hmu
    split at hmu <;> split at hmu
    · omega
    · cases hmu
    · cases hmu
    · rw [List.cons.injEq] at hmu; exact inj hf.micro hg.micro hmu.2
  cases f
  cases g
  simp only [Fields.mk.injEq]
  exact ⟨inj hf.year hg.year hy, inj hf.month hg.month hm, inj hf.day hg.day hd,
    inj hf.hour hg.hour hh, inj hf.minute hg.minute hmi, inj hf.second hg.second hse, hmicro⟩

/-- `isoformat` is injective on representable datetimes. -/
theorem isoformat_inj {s t : Int} (hs : InRange s) (ht : InRange t)
    (h : isoformat s = isoformat t) : s = t :=
  fields_inj hs ht (Fields.chars_inj (fields_fits hs) (fields_fits ht) (String.ofList_injective h))

theorem bar_notMem_isoformat (t : Int) : '|' ∉ (isoformat t).toList := by
  have hpad : ∀ w n, '|' ∉ pad 10 w n := fun w n =>
    notMem_pad (by decide) (by decide) (by decide)
  have hmicro : ∀ n, '|' ∉ microPart n := fun n => by
    unfold microPart
    split <;> simp [hpad]
  simp [isoformat, Fields.chars, hpad, hmicro]

end Taskowl.Py
