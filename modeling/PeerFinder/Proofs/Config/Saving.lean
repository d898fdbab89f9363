import PeerFinder.Config.Load
import PeerFinder.Proofs.Config.Durations
import PeerFinder.Proofs.Toml.Ranges

/-!
# Saving what was loaded

A configuration can be written unless one of its numbers is beyond the integers of a document. The
durations of a valid configuration are not, and numbers that were read from a document are not either.
What is left is the limit of the store, which an override may set to any number of 64 bits:
`Config.load_renders_iff` says that a configuration that was loaded can be written exactly if that
override, if there is one, is in range.
-/

namespace PeerFinder

namespace Toml

/-- A value fits a document unless it is an integer beyond the range. -/
def Field.Fits : Field → Prop
  | .integer number => number < 2 ^ 63
  | _ => True

/-- A value is written if it fits, and only then. -/
theorem Field.render_is_some_iff {field : Field} : field.render?.isSome = true ↔ field.Fits := by
  cases field with
  | integer number =>
      rw [Field.render?, Option.isSome_ite, Field.Fits]
      rfl
  | _ => exact ⟨fun _ => trivial, fun _ => rfl⟩

/-- One text after another is written if both are. -/
theorem is_some_bind_iff {first second : Option (List Char)} {join : List Char → List Char → List Char} :
    (first.bind fun text => second.bind fun rest => some (join text rest)).isSome = true ↔
      first.isSome = true ∧ second.isSome = true := by
  cases first <;> cases second <;> simp

/-- Keys and values are written if all values fit. -/
theorem render_fields_is_some_iff {fields : List (Key × Field)} :
    (renderFields? fields).isSome = true ↔ ∀ pair ∈ fields, pair.2.Fits := by
  induction fields with
  | nil => simp [renderFields?]
  | cons pair fields ih =>
      rw [List.forall_mem_cons, ← ih, ← Field.render_is_some_iff]
      exact is_some_bind_iff

/-- A section is written if all its values fit. -/
theorem Section.render_is_some_iff {part : Section} :
    part.render?.isSome = true ↔ ∀ pair ∈ part.fields, pair.2.Fits := by
  rw [← render_fields_is_some_iff, Section.render?]
  cases renderFields? part.fields <;> simp

/-- A document is written if all its values fit. -/
theorem render_is_some_iff {sections : List Section} :
    (render? sections).isSome = true ↔ ∀ part ∈ sections, ∀ pair ∈ part.fields, pair.2.Fits := by
  induction sections with
  | nil => simp [render?]
  | cons part others ih =>
      rw [List.forall_mem_cons, ← ih, ← Section.render_is_some_iff]
      cases others with
      | nil => simp [render?]
      | cons next others => exact is_some_bind_iff

end Toml

namespace Config

open Toml Reader

variable {config : Config} {value : Value} {entries : Entries} {word : UInt64}

/-- A number of 64 bits fits a document if it is one of 64 bits with a sign. -/
def Fits (word : UInt64) : Prop :=
  word.toNat < 2 ^ 63

instance (word : UInt64) : Decidable (Fits word) :=
  inferInstanceAs (Decidable (_ < _))

section Fields

variable (name : String)

/-- Flags fit. -/
theorem flag_field_fits (flag : Bool) : (flagField name flag).2.Fits :=
  trivial

/-- Texts fit. -/
theorem text_field_fits (text : String) : (textField name text).2.Fits :=
  trivial

/-- Lists of texts fit. -/
theorem texts_field_fits (texts : List String) : (textsField name texts).2.Fits :=
  trivial

/-- Numbers fit as far as they are in range. -/
theorem word_field_fits_iff : (wordField name word).2.Fits ↔ Fits word :=
  .rfl

end Fields

/-- A valid configuration is written if its limits fit: all its other numbers do. -/
theorem IsValid.render_is_some_iff (hvalid : config.IsValid) :
    config.render?.isSome = true ↔ Fits config.coordinator.queryLimit ∧ Fits config.store.maxPeers := by
  have hlong : longestDuration < 2 ^ 63 := by decide
  have hdurations : ∀ duration ∈ config.durations, Fits duration.2 := fun duration hmem =>
    Nat.lt_of_le_of_lt (hvalid.durations duration hmem) hlong
  have hattempts : Fits config.seeds.attempts.toUInt64 := by
    have hlt := config.seeds.attempts.toNat_lt
    rw [Fits, UInt32.toNat_toUInt64]
    omega
  simp only [Config.durations, List.forall_mem_cons] at hdurations
  rw [render?, Option.isSome_map, Toml.render_is_some_iff]
  simp only [sections, List.forall_mem_cons, word_field_fits_iff, text_field_fits, texts_field_fits,
    flag_field_fits, hdurations, hattempts, true_and, and_true, List.not_mem_nil, false_imp_iff,
    implies_true]

/-! ## What is read -/

/-- A number that is read from a value in range fits. -/
theorem word_fits (hvalue : value.InRange) (hread : word? value = some word) : Fits word := by
  cases hvalue with
  | integer number hleast hgreatest =>
      rw [word?] at hread
      split_ifs at hread
      cases hread
      rw [Fits, UInt64.toNat_ofNat']
      omega
  | _ => cases hread

/-- The values of a section in range are in range. -/
theorem fields_in_range {names : List String} {fields : String → Option Value} (hvalue : value.InRange)
    (hfields : fields? names value = some fields) {name : String} {field : Value}
    (hfield : fields name = some field) : field.InRange := by
  -- An array gives its elements to the names of the settings in order.
  have hzip : ∀ elements : List Value, (∀ element ∈ elements, element.InRange) →
      (names.zip elements).lookup name = some field → field.InRange := by
    intro elements helements hlookup
    obtain ⟨before, after, hsplit, -⟩ := List.lookup_eq_some_iff.mp hlookup
    have hmem : (name, field) ∈ names.zip elements := hsplit ▸ List.mem_append_right _ (.head _)
    exact helements field (List.of_mem_zip hmem).2
  cases hvalue with
  | table origin entries hentries =>
      cases hfields
      exact Entries.InRange.get hentries hfield
  | inlineTable entries hentries =>
      cases hfields
      exact Entries.InRange.get hentries hfield
  | array elements helements =>
      cases hfields
      exact hzip elements helements hfield
  | tables latest earlier hlatest hearlier =>
      cases hfields
      refine hzip _ ?_ hfield
      intro element helement
      obtain ⟨entries, hentries, rfl⟩ := List.mem_map.mp helement
      obtain rfl | hmem := List.mem_cons.mp (List.mem_reverse.mp hentries)
      · exact .table _ _ hlatest
      · exact .table _ _ (hearlier entries hmem)
  | moment spelling =>
      cases hfields
      cases hfield
  | _ => cases hfields

/-- A setting has a property if its default has it and what is read for it has it. -/
theorem setting_has {α : Type} (property : α → Prop) {fields : String → Option Value} {name : String}
    {read? : Value → Option α} {default read : α} (hdefault : property default)
    (hread : ∀ value, fields name = some value → read? value = some read → property read)
    (hsetting : setting fields name read? default = some read) : property read := by
  rw [setting] at hsetting
  split at hsetting
  · cases hsetting
    exact hdefault
  · rename_i value hvalue
    exact hread value hvalue hsetting

/-- The limit of a query that is read from a value in range fits. -/
theorem query_limit_fits {settings : CoordinatorSettings} (hvalue : value.InRange)
    (hread : coordinator? value = some settings) : Fits settings.queryLimit := by
  simp only [coordinator?, Option.bind_eq_bind, Option.bind_eq_some_iff] at hread
  obtain ⟨fields, hfields, _, -, limit, hlimit, _, -, _, -, _, -, _, -, heq⟩ := hread
  cases heq
  refine setting_has Fits (by decide) (fun field hfield => ?_) hlimit
  exact word_fits (fields_in_range hvalue hfields hfield)

/-- The limit of the store that is read from a value in range fits. -/
theorem max_peers_fits {settings : StoreSettings} (hvalue : value.InRange)
    (hread : store? value = some settings) : Fits settings.maxPeers := by
  simp only [store?, Option.bind_eq_bind, Option.bind_eq_some_iff] at hread
  obtain ⟨fields, hfields, limit, hlimit, _, -, _, -, heq⟩ := hread
  cases heq
  refine setting_has Fits (by decide) (fun field hfield => ?_) hlimit
  exact word_fits (fields_in_range hvalue hfields hfield)

/-- The limits of a configuration that is read fit. -/
theorem limits_fit {text : String} (hparse : parse? text = some config) :
    Fits config.coordinator.queryLimit ∧ Fits config.store.maxPeers := by
  obtain ⟨entries, hentries, hread⟩ := Option.bind_eq_some_iff.mp hparse
  have hrange := in_range_of_parse hentries
  simp only [ofEntries?, Option.bind_eq_bind, Option.bind_eq_some_iff] at hread
  obtain ⟨_, -, _, -, _, -, coordinator, hcoordinator, store, hstore, heq⟩ := hread
  cases heq
  constructor
  · refine setting_has (fun (settings : CoordinatorSettings) => Fits settings.queryLimit) (by decide)
      (fun value hvalue => ?_) hcoordinator
    exact query_limit_fits (hrange.get hvalue)
  · refine setting_has (fun (settings : StoreSettings) => Fits settings.maxPeers) (by decide)
      (fun value hvalue => ?_) hstore
    exact max_peers_fits (hrange.get hvalue)

/-! ## What is loaded -/

variable {file : Option ByteArray} {lookup : String → Option String}

/-- What is loaded was read from a text, has the overrides, and is valid. -/
theorem exists_of_load (hload : load file lookup = .ok config) :
    ∃ text read, parse? text = some read ∧ config = read.override lookup ∧ config.IsValid := by
  cases file with
  | none => cases hload
  | some bytes =>
      cases htext : String.fromUTF8? bytes with
      | none =>
          simp only [load, htext] at hload
          cases hload
      | some text =>
          cases hparse : parse? text with
          | none =>
              simp only [load, htext, hparse] at hload
              cases hload
          | some read =>
              cases hvalidate : (read.override lookup).validate with
              | error fault =>
                  simp only [load, htext, hparse, hvalidate] at hload
                  cases hload
              | ok =>
                  simp only [load, htext, hparse, hvalidate] at hload
                  cases hload
                  exact ⟨text, read, hparse, rfl, validate_eq_ok_iff.mp hvalidate⟩

/-- A configuration that was loaded can be written exactly if the limit of its store is not overridden
by a number beyond the integers of a document. -/
theorem load_renders_iff (hload : load file lookup = .ok config) :
    config.render?.isSome = true ↔
      ∀ word, (lookup "MAX_PEERS").bind overrideWord? = some word → word.toNat < 2 ^ 63 := by
  obtain ⟨text, read, hparse, rfl, hvalid⟩ := exists_of_load hload
  obtain ⟨hlimit, hmax⟩ := limits_fit hparse
  rw [hvalid.render_is_some_iff]
  -- No override touches the limit of queries, and one replaces the limit of the store.
  show Fits read.coordinator.queryLimit ∧
    Fits (((lookup "MAX_PEERS").bind overrideWord?).getD read.store.maxPeers) ↔ _
  rw [and_iff_right hlimit]
  cases (lookup "MAX_PEERS").bind overrideWord? with
  | none => simp [hmax]
  | some word => simp [Fits]

/-- Not all that is loaded can be written: an override sets the limit of the store to any number of
64 bits. -/
theorem not_load_renders :
    ¬ ∀ file lookup config, load file lookup = .ok config → config.render?.isSome = true := by
  intro hall
  let lookup := fun key => if key = "MAX_PEERS" then some "18446744073709551615" else none
  have hload : load (some .empty) lookup = .ok { store.maxPeers := UInt64.ofNat (2 ^ 64 - 1) } := by
    decide +kernel
  have hrenders := hall _ _ _ hload
  revert hrenders
  decide +kernel

/-- The largest number that fits can be written. -/
theorem load_renders_iff_largest :
    let lookup := fun key => if key = "MAX_PEERS" then some "+9223372036854775807" else none
    ∃ config, load (some .empty) lookup = .ok config ∧ config.render?.isSome = true := by
  intro lookup
  have hload : load (some .empty) lookup = .ok { store.maxPeers := UInt64.ofNat (2 ^ 63 - 1) } := by
    decide +kernel
  refine ⟨_, hload, (load_renders_iff hload).mpr ?_⟩
  have hword : (lookup "MAX_PEERS").bind overrideWord? = some (UInt64.ofNat (2 ^ 63 - 1)) := by
    decide +kernel
  rw [hword]
  rintro _ ⟨⟩
  decide

end Config

end PeerFinder
