import TlsKeys.Generator.Params

/-!
The last value given under a name counts.

Parameters are gathered from the first pair to the last, and a value replaces
what was gathered before. Looking for the first pair of a name from the end on
comes to the same (`ofNamed_eq_lastValue`). So pairs of other names do not
matter, nor does the order of values of different names, and a builder that is
told the same values one by one comes to the same parameters.
-/

namespace TlsKeys.Params

/-- What a list of pairs has for a name: the value of its last pair of that name. -/
inductive IsLast (name : String) : List (String × Bytes) → Option Bytes → Prop where
  | absent {options} :
      (∀ option ∈ options, option.1 ≠ name) → IsLast name options none
  | last {earlier value later} :
      (∀ option ∈ later, option.1 ≠ name) →
      IsLast name (earlier ++ (name, value) :: later) (some value)

def valueFor (name : String) (option : String × Bytes) : Option Bytes :=
  if option.1 = name then some option.2 else none

def lastValue (name : String) (options : List (String × Bytes)) : Option Bytes :=
  options.reverse.findSome? (valueFor name)

section LastValue

variable {name : String}

theorem valueFor_eq_none_iff {option : String × Bytes} :
    valueFor name option = none ↔ option.1 ≠ name := by
  simp [valueFor]

theorem valueFor_eq_some_iff {option : String × Bytes} {value : Bytes} :
    valueFor name option = some value ↔ option = (name, value) := by
  simp [valueFor, Prod.ext_iff]

theorem lastValue_append (options more : List (String × Bytes)) :
    lastValue name (options ++ more) = (lastValue name more).or (lastValue name options) := by
  rw [lastValue, List.reverse_append, List.findSome?_append]
  rfl

theorem lastValue_cons (option : String × Bytes) (options : List (String × Bytes)) :
    lastValue name (option :: options) = (lastValue name options).or (valueFor name option) := by
  rw [lastValue, List.reverse_cons, List.findSome?_append, List.findSome?_singleton]
  rfl

theorem isLast_lastValue (options : List (String × Bytes)) :
    IsLast name options (lastValue name options) := by
  cases found : lastValue name options with
  | none =>
    apply IsLast.absent
    intro option present
    have silent := List.findSome?_eq_none_iff.mp found option (List.mem_reverse.mpr present)
    exact valueFor_eq_none_iff.mp silent
  | some value =>
    obtain ⟨later, option, earlier, parts, given, silent⟩ := List.findSome?_eq_some_iff.mp found
    rw [valueFor_eq_some_iff] at given
    have forward : options = earlier.reverse ++ (name, value) :: later.reverse := by
      rw [← List.reverse_reverse options, parts, given]
      simp
    rw [forward]
    apply IsLast.last
    intro option present
    exact valueFor_eq_none_iff.mp (silent option (List.mem_reverse.mp present))

/-- Pairs of one name do not change the last value of another. -/
theorem lastValue_insert (earlier later : List (String × Bytes)) {option : String × Bytes}
    (other : option.1 ≠ name) :
    lastValue name (earlier ++ option :: later) = lastValue name (earlier ++ later) := by
  rw [lastValue_append, lastValue_append, lastValue_cons, valueFor_eq_none_iff.mpr other,
    Option.or_none]

theorem lastValue_filter (options : List (String × Bytes)) {keep : String × Bytes → Bool}
    (kept : ∀ option, option.1 = name → keep option = true) :
    lastValue name (options.filter keep) = lastValue name options := by
  induction options with
  | nil => rfl
  | cons option options ih =>
    rw [List.filter_cons, lastValue_cons]
    by_cases stays : keep option = true
    · rw [if_pos stays, lastValue_cons, ih]
    · have other : option.1 ≠ name := fun named => stays (kept option named)
      rw [if_neg stays, ih, valueFor_eq_none_iff.mpr other, Option.or_none]

theorem lastValue_exchange (earlier later : List (String × Bytes)) (first : String × Bytes)
    {second : String × Bytes} (other : second.1 ≠ name) :
    lastValue name (earlier ++ first :: second :: later) =
      lastValue name (earlier ++ second :: first :: later) := by
  rw [List.append_cons, lastValue_insert _ _ other, ← List.append_cons, lastValue_insert _ _ other]

/-- Of two pairs of different names, one at least has another name than that asked for. -/
theorem lastValue_swap (earlier later : List (String × Bytes)) {first second : String × Bytes}
    (differ : first.1 ≠ second.1) :
    lastValue name (earlier ++ first :: second :: later) =
      lastValue name (earlier ++ second :: first :: later) := by
  by_cases named : first.1 = name
  · have other : second.1 ≠ name := fun same => differ (named.trans same.symm)
    exact lastValue_exchange earlier later first other
  · exact (lastValue_exchange earlier later second named).symm

end LastValue

/-- The values of one set of parameters, and where it has none, those of another. -/
def override (params newer : Params) : Params where
  secret? := newer.secret?.or params.secret?
  seed? := newer.seed?.or params.seed?

/-- What one pair does to the parameters gathered before it. -/
def gather (params : Params) (option : String × Bytes) : Params :=
  if option.1 = secretName then { params with secret? := some option.2 }
  else if option.1 = seedName then { params with seed? := some option.2 }
  else params

theorem ofNamed_eq_foldl (options : List (String × Bytes)) :
    ofNamed options = options.foldl gather {} := rfl

theorem gather_eq_override (params : Params) (option : String × Bytes) :
    params.gather option =
      params.override ⟨valueFor secretName option, valueFor seedName option⟩ := by
  have apart : secretName ≠ seedName := by decide
  by_cases isSecret : option.1 = secretName
  · have other : option.1 ≠ seedName := fun same => apart (isSecret.symm.trans same)
    simp [gather, override, valueFor, isSecret, apart]
  · by_cases isSeed : option.1 = seedName
    · simp [gather, override, valueFor, isSeed, Ne.symm apart]
    · simp [gather, override, valueFor, isSecret, isSeed]

theorem foldl_gather (params : Params) (options : List (String × Bytes)) :
    options.foldl gather params =
      params.override ⟨lastValue secretName options, lastValue seedName options⟩ := by
  induction options generalizing params with
  | nil => rfl
  | cons option options ih =>
    rw [List.foldl_cons, ih, gather_eq_override, lastValue_cons, lastValue_cons]
    simp only [override, Option.or_assoc]

theorem ofNamed_eq_lastValue (options : List (String × Bytes)) :
    ofNamed options = ⟨lastValue secretName options, lastValue seedName options⟩ := by
  rw [ofNamed_eq_foldl, foldl_gather]
  simp only [override, Option.or_none]

theorem ofNamed_append (options more : List (String × Bytes)) :
    ofNamed (options ++ more) = (ofNamed options).override (ofNamed more) := by
  simp only [ofNamed_eq_lastValue, lastValue_append, override]

/-- A setting as a pair. -/
def Setting.named : Setting → String × Bytes
  | secret value => (secretName, value)
  | seed value => (seedName, value)

theorem gather_named (params : Params) (setting : Setting) :
    params.gather setting.named = params.set setting := by
  cases setting <;> rfl

theorem ofNamed_map_named (settings : List Setting) :
    ofNamed (settings.map Setting.named) = ofSettings settings := by
  rw [ofNamed_eq_foldl, List.foldl_map, ofSettings]
  simp only [gather_named]

/-- A draft of parameters that is filled in value by value, and then built. -/
structure Builder (Draft Refusal : Type) where
  fresh : Draft
  secret : Bytes → Draft → Draft
  seed : Bytes → Draft → Draft
  build : Draft → Except Refusal Params

namespace Builder

variable {Draft Refusal : Type} (builder : Builder Draft Refusal)

def set (draft : Draft) : Setting → Draft
  | .secret value => builder.secret value draft
  | .seed value => builder.seed value draft

/-- A fresh draft has neither value, and filling one in replaces it and leaves the other. -/
structure Lawful : Prop where
  build_fresh : builder.build builder.fresh = .ok {}
  build_secret {draft params} (value : Bytes) : builder.build draft = .ok params →
    builder.build (builder.secret value draft) = .ok { params with secret? := some value }
  build_seed {draft params} (value : Bytes) : builder.build draft = .ok params →
    builder.build (builder.seed value draft) = .ok { params with seed? := some value }

variable {builder}

theorem Lawful.build_set (lawful : builder.Lawful) {draft : Draft} {params : Params}
    (builds : builder.build draft = .ok params) (setting : Setting) :
    builder.build (builder.set draft setting) = .ok (params.set setting) := by
  cases setting with
  | secret value => exact lawful.build_secret value builds
  | seed value => exact lawful.build_seed value builds

theorem Lawful.build_foldl_set (lawful : builder.Lawful) {draft : Draft} {params : Params}
    (builds : builder.build draft = .ok params) (settings : List Setting) :
    builder.build (settings.foldl builder.set draft) = .ok (settings.foldl Params.set params) := by
  induction settings generalizing draft params with
  | nil => exact builds
  | cons setting settings ih => exact ih (lawful.build_set builds setting)

/-- The draft has a place for each value, and a place that was not filled in counts as no value. -/
def ofPlaces : Builder (Option (Option Bytes) × Option (Option Bytes)) String where
  fresh := (none, none)
  secret value draft := (some (some value), draft.2)
  seed value draft := (draft.1, some (some value))
  build draft := .ok { secret? := draft.1.getD none, seed? := draft.2.getD none }

theorem lawful_ofPlaces : ofPlaces.Lawful where
  build_fresh := rfl
  build_secret value builds := by
    cases builds
    rfl
  build_seed value builds := by
    cases builds
    rfl

end Builder

/-- Named values give the last secret and the last seed of a list. A list that goes on with another
is overridden by it, value by value; pairs of other names and the order of pairs of different names
do not matter; and values that are set one by one build the same parameters. -/
theorem ofNamed_isLast (options : List (String × Bytes)) :
    IsLast "secret" options (ofNamed options).secret? ∧
      IsLast "seed" options (ofNamed options).seed? ∧
      (∀ more,
        (ofNamed (options ++ more)).secret? =
            (ofNamed more).secret?.or (ofNamed options).secret? ∧
          (ofNamed (options ++ more)).seed? = (ofNamed more).seed?.or (ofNamed options).seed?) ∧
      ofNamed (options.filter fun option => option.1 = "secret" ∨ option.1 = "seed") =
        ofNamed options ∧
      (∀ later option, option.1 ≠ "secret" → option.1 ≠ "seed" →
        ofNamed (options ++ option :: later) = ofNamed (options ++ later)) ∧
      (∀ later first second, first.1 ≠ second.1 →
        ofNamed (options ++ first :: second :: later) =
          ofNamed (options ++ second :: first :: later)) ∧
      ∀ settings : List Setting, ofSettings settings = ofNamed (settings.map Setting.named) ∧
        ∀ (Draft Refusal : Type) (builder : Builder Draft Refusal), builder.Lawful →
          builder.build (settings.foldl builder.set builder.fresh) =
            .ok (ofNamed (settings.map Setting.named)) := by
  refine ⟨?_, ?_, fun more => ?_, ?_, fun later option => ?_, fun later first second => ?_,
    fun settings => ⟨(ofNamed_map_named settings).symm, fun Draft Refusal builder lawful => ?_⟩⟩
  · rw [ofNamed_eq_lastValue]
    exact isLast_lastValue options
  · rw [ofNamed_eq_lastValue]
    exact isLast_lastValue options
  · rw [ofNamed_append]
    exact ⟨rfl, rfl⟩
  · have keeps (name : String) (known : name = "secret" ∨ name = "seed") :
        lastValue name (options.filter fun option => option.1 = "secret" ∨ option.1 = "seed") =
          lastValue name options := by
      apply lastValue_filter
      rintro option rfl
      exact decide_eq_true known
    rw [ofNamed_eq_lastValue, ofNamed_eq_lastValue, keeps secretName (.inl rfl),
      keeps seedName (.inr rfl)]
  · intro notSecret notSeed
    rw [ofNamed_eq_lastValue, ofNamed_eq_lastValue,
      lastValue_insert options later (show option.1 ≠ secretName from notSecret),
      lastValue_insert options later (show option.1 ≠ seedName from notSeed)]
  · intro differ
    rw [ofNamed_eq_lastValue, ofNamed_eq_lastValue, lastValue_swap options later differ,
      lastValue_swap options later differ]
  · rw [ofNamed_map_named]
    exact lawful.build_foldl_set lawful.build_fresh settings

theorem ofNamed_isLast_near_miss :
    let options : List (String × Bytes) := [("seed", [1]), ("secret", [2])]
    "Secret" ≠ "secret" ∧ "Secret" ≠ "seed" ∧ "seed" ≠ "secret" ∧ Builder.ofPlaces.Lawful ∧
      IsLast "seed" (options ++ [("seed", [])]) (some []) ∧
      ofNamed (options ++ [("Secret", [3]), ("seed", [])]) = ofNamed (options ++ [("seed", [])]) ∧
      ofNamed (options ++ [("seed", []), ("secret", [4])]) =
        ofNamed (options ++ [("secret", [4]), ("seed", [])]) ∧
      Builder.ofPlaces.build
          (Builder.ofPlaces.seed [] (Builder.ofPlaces.secret [2]
            (Builder.ofPlaces.seed [1] Builder.ofPlaces.fresh))) =
        .ok (ofNamed (options ++ [("seed", [])])) := by
  intro options
  obtain ⟨_, _, _, _, ignored, swapped, built⟩ := ofNamed_isLast options
  obtain ⟨_, lastSeed, _⟩ := ofNamed_isLast (options ++ [("seed", [])])
  obtain ⟨_, buildsAll⟩ := built [.seed [1], .secret [2], .seed []]
  exact ⟨by decide, by decide, by decide, Builder.lawful_ofPlaces, lastSeed,
    ignored [("seed", [])] ("Secret", [3]) (by decide) (by decide),
    swapped [] ("seed", []) ("secret", [4]) (by decide),
    buildsAll _ _ Builder.ofPlaces Builder.lawful_ofPlaces⟩

end TlsKeys.Params
