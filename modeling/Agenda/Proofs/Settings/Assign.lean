/-
Agenda/Proofs/Settings/Assign.lean

Assigning settings, seen as a map from keys to values.

A text *means* a value of a setting, or none (`Means`): any text does for a list
or a path, one of eight words for a truth value, and an integer from 1 to two to
the power of 32 for a number.  An assignment of a text that means a value gives
the key this value and keeps the other keys and the version; every other
assignment is refused (`assigns_assign`).
-/
import Agenda.Settings.Assign
import Mathlib.Tactic.Common

namespace Agenda

open Text

variable {settings settings' : Settings} {key other : SettingKey} {name text : String}

/-! ### Values -/

/-- The value of a setting. -/
inductive SettingValue where
  /-- A text. -/
  | text (s : String)
  /-- A truth value. -/
  | truth (b : Bool)
  /-- A number. -/
  | number (n : Int)
deriving DecidableEq, Repr

/-- The value of a setting, if it is set. -/
def Settings.get? (settings : Settings) : SettingKey → Option SettingValue
  | .defaultList => settings.defaultList.map .text
  | .color => settings.color.map .truth
  | .storePath => settings.storePath.map .text
  | .step => settings.step.map fun n => .number n.toInt
  | .minGap => settings.minGap.map fun n => .number n.toInt

/-! ### Meanings -/

/-- The integer in decimal digits, perhaps after a sign. -/
inductive Decimal : List Char → Int → Prop
  | unsigned {ds : List Char} : ds ≠ [] → (∀ c ∈ ds, c.isDigit = true) →
      Decimal ds (decimalValue ds)
  | plus {ds : List Char} : ds ≠ [] → (∀ c ∈ ds, c.isDigit = true) →
      Decimal ('+' :: ds) (decimalValue ds)
  | minus {ds : List Char} : ds ≠ [] → (∀ c ∈ ds, c.isDigit = true) →
      Decimal ('-' :: ds) (-decimalValue ds)

/-- What a text means as the value of a setting. -/
inductive Means : SettingKey → String → SettingValue → Prop
  | list (text : String) : Means .defaultList text (.text text)
  | path (text : String) : Means .storePath text (.text text)
  | on {text : String} : lower text ∈ ["true", "yes", "1", "on"] → Means .color text (.truth true)
  | off {text : String} : lower text ∈ ["false", "no", "0", "off"] →
      Means .color text (.truth false)
  | step {text : String} {n : Int} : Decimal (trim text).toList n → 1 ≤ n → n ≤ Spacing.maxStep →
      Means .step text (.number n)
  | minGap {text : String} {n : Int} : Decimal (trim text).toList n → 1 ≤ n → n ≤ Spacing.maxStep →
      Means .minGap text (.number n)

/-! ### Reading texts of values -/

theorem truthOf?_eq_some {b : Bool} (h : truthOf? text = some b) :
    Means .color text (.truth b) := by
  rw [truthOf?] at h
  split at h
  · next hon =>
    cases h
    exact .on (by simpa using hon)
  · split at h
    · next hoff =>
      cases h
      exact .off (by simpa using hoff)
    · cases h

theorem truthOf?_eq_none (h : truthOf? text = none) (value : SettingValue) :
    ¬ Means .color text value := by
  rw [truthOf?] at h
  split at h
  · cases h
  · next hon =>
    split at h
    · cases h
    · next hoff =>
      intro hmeans
      cases hmeans with
      | on h => exact hon (by simpa using h)
      | off h => exact hoff (by simpa using h)

/-- Digits stand behind a plus, or they are all of the text. -/
theorem natural?_cases (cs : List Char) :
    ∃ ds, (cs = '+' :: ds ∨ cs = ds ∧ ∀ more, cs ≠ '+' :: more) ∧
      ∀ n, natural? cs = some n ↔
        ds ≠ [] ∧ (∀ c ∈ ds, c.isDigit = true) ∧ decimalValue ds = n := by
  -- digits are read in the same way with a plus and without
  have hread : ∀ (ds : List Char) (n : Nat),
      (if ds.isEmpty = true ∨ (!ds.all Char.isDigit) = true then none else some (decimalValue ds)) =
          some n ↔ ds ≠ [] ∧ (∀ c ∈ ds, c.isDigit = true) ∧ decimalValue ds = n := by
    intro ds n
    simp [and_assoc]
  by_cases hplus : ∃ ds, cs = '+' :: ds
  · obtain ⟨ds, rfl⟩ := hplus
    exact ⟨ds, .inl rfl, hread ds⟩
  · rw [not_exists] at hplus
    have hall : natural? cs =
        if cs.isEmpty = true ∨ (!cs.all Char.isDigit) = true then none
        else some (decimalValue cs) := by
      cases cs with
      | nil => rfl
      | cons c cs => simp [Text.natural?]
    exact ⟨cs, .inr ⟨rfl, hplus⟩, fun n => by rw [hall, hread]⟩

theorem decimal_of_natural? {cs : List Char} {n : Nat} (h : natural? cs = some n) :
    Decimal cs n := by
  obtain ⟨ds, hds, hread⟩ := natural?_cases cs
  obtain ⟨hne, hdigits, rfl⟩ := (hread n).mp h
  rcases hds with rfl | ⟨rfl, -⟩
  · exact .plus hne hdigits
  · exact .unsigned hne hdigits

theorem Decimal.natural? {cs : List Char} {n : Int} (h : Decimal cs n) (hn : 1 ≤ n) :
    natural? cs = some n.toNat := by
  obtain ⟨ds, hds, hread⟩ := natural?_cases cs
  rw [hread]
  cases h with
  | unsigned hne hdigits =>
    rcases hds with rfl | ⟨rfl, -⟩
    · cases hdigits '+' List.mem_cons_self
    · exact ⟨hne, hdigits, (Int.toNat_natCast _).symm⟩
  | plus hne hdigits =>
    rcases hds with hds | ⟨-, hplus⟩
    · cases hds
      exact ⟨hne, hdigits, (Int.toNat_natCast _).symm⟩
    · exact absurd rfl (hplus _)
  | minus => omega

/-- **The numbers that are read**: integers from 1 to two to the power of 32. -/
theorem stepOf?_eq_some {n : Int64} (h : stepOf? text = some n) :
    Decimal (trim text).toList n.toInt ∧ 1 ≤ n.toInt ∧ n.toInt ≤ Spacing.maxStep := by
  rw [stepOf?, Option.map_eq_some_iff] at h
  obtain ⟨m, hm, rfl⟩ := h
  rw [Option.filter_eq_some_iff, Option.map_eq_some_iff] at hm
  obtain ⟨⟨k, hk, rfl⟩, hrange⟩ := hm
  have hbounds : 1 ≤ Int.ofNat k ∧ Int.ofNat k ≤ Spacing.maxStep := by simpa using hrange
  -- a number in the range is far from the ends of 64 bits
  have hk' : (Int64.ofInt (Int.ofNat k)).toInt = k := by
    have hmax : Spacing.maxStep = 4294967296 := rfl
    exact Int64.toInt_ofInt_of_le (by omega) (by omega)
  rw [hk', toList_trim]
  exact ⟨decimal_of_natural? hk, hbounds⟩

theorem stepOf?_eq_none (h : stepOf? text = none) {n : Int} (hn : Decimal (trim text).toList n)
    (hone : 1 ≤ n) : ¬ n ≤ Spacing.maxStep := by
  intro hle
  rw [toList_trim] at hn
  rw [stepOf?, hn.natural? hone, Option.map_some, Option.filter_some_pos] at h
  · cases h
  · have hcast : Int.ofNat n.toNat = n := Int.toNat_of_nonneg (by omega)
    rw [hcast]
    exact decide_eq_true ⟨hone, hle⟩

/-! ### Assignments -/

theorem SettingKey.ofName?_eq_some_iff : SettingKey.ofName? name = some key ↔ key.name = name := by
  constructor
  · intro h
    simpa using List.find?_some h
  · rintro rfl
    cases key <;> decide

/-- Settings have different names. -/
theorem SettingKey.eq_of_name_eq (h : key.name = other.name) : key = other :=
  Option.some.inj ((ofName?_eq_some_iff.mpr h).symm.trans (ofName?_eq_some_iff.mpr rfl))

theorem SettingKey.ofName?_eq_none_iff :
    SettingKey.ofName? name = none ↔ ∀ key : SettingKey, key.name ≠ name := by
  rw [← Option.not_isSome_iff_eq_none, Option.isSome_iff_exists]
  simp only [ofName?_eq_some_iff, not_exists]

/-- What is told of a text that means no value of a setting. -/
def SettingKey.complaint (key : SettingKey) (text : String) : AssignError :=
  match key with
  | .color => .notATruthValue text
  | key => .notAStep key text

/-- What an assignment comes to. -/
inductive Assigns (settings : Settings) (name text : String) : Except AssignError Settings → Prop
  /-- The key gets the value that the text means, and nothing else changes. -/
  | accepted {key : SettingKey} {value : SettingValue} {settings' : Settings} :
      key.name = name → Means key text value → settings'.get? key = some value →
      (∀ other, other ≠ key → settings'.get? other = settings.get? other) →
      settings'.version = settings.version → Assigns settings name text (.ok settings')
  /-- No setting has this name. -/
  | unknown : (∀ key : SettingKey, key.name ≠ name) →
      Assigns settings name text (.error (.unknownKey name))
  /-- The text means no value of the setting. -/
  | meaningless {key : SettingKey} : key.name = name → (∀ value, ¬ Means key text value) →
      Assigns settings name text (.error (key.complaint text))

/-- **Every assignment comes to one of these.** -/
theorem assigns_assign (settings : Settings) (name text : String) :
    Assigns settings name text (settings.assign name text) := by
  rw [Settings.assign]
  cases hkey : SettingKey.ofName? name with
  | none => exact .unknown (SettingKey.ofName?_eq_none_iff.mp hkey)
  | some key =>
    have hname := SettingKey.ofName?_eq_some_iff.mp hkey
    cases key with
    | defaultList =>
      -- each key has a field of its own, and the other keys read other fields
      refine .accepted hname (.list text) rfl (fun other hne => ?_) rfl
      cases other <;> first | rfl | exact absurd rfl hne
    | storePath =>
      refine .accepted hname (.path text) rfl (fun other hne => ?_) rfl
      cases other <;> first | rfl | exact absurd rfl hne
    | color =>
      cases htruth : truthOf? text with
      | none => exact .meaningless hname (truthOf?_eq_none htruth)
      | some b =>
        refine .accepted hname (truthOf?_eq_some htruth) rfl (fun other hne => ?_) rfl
        cases other <;> first | rfl | exact absurd rfl hne
    | step =>
      cases hstep : stepOf? text with
      | none =>
        refine .meaningless hname fun value hmeans => ?_
        cases hmeans with
        | step hdecimal hone hle => exact stepOf?_eq_none hstep hdecimal hone hle
      | some n =>
        obtain ⟨hdecimal, hone, hle⟩ := stepOf?_eq_some hstep
        refine .accepted hname (.step hdecimal hone hle) rfl (fun other hne => ?_) rfl
        cases other <;> first | rfl | exact absurd rfl hne
    | minGap =>
      cases hstep : stepOf? text with
      | none =>
        refine .meaningless hname fun value hmeans => ?_
        cases hmeans with
        | minGap hdecimal hone hle => exact stepOf?_eq_none hstep hdecimal hone hle
      | some n =>
        obtain ⟨hdecimal, hone, hle⟩ := stepOf?_eq_some hstep
        refine .accepted hname (.minGap hdecimal hone hle) rfl (fun other hne => ?_) rfl
        cases other <;> first | rfl | exact absurd rfl hne

/-- Only a text that means nothing is refused. -/
theorem Assigns.not_means {e : AssignError} (h : Assigns settings name text (.error e))
    (hname : key.name = name) (value : SettingValue) : ¬ Means key text value := by
  cases h with
  | unknown hunknown => exact absurd hname (hunknown key)
  | meaningless hother hnone =>
    obtain rfl := SettingKey.eq_of_name_eq (hname.trans hother.symm)
    exact hnone value

end Agenda
