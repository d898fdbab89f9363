import PeerFinder.Config.Load
import PeerFinder.Proofs.Toml.Documents

/-!
# Reading back configurations

`Config.parse_of_render` says that a configuration that was written is read back with every setting,
whatever texts and lists it has. The document that is written has the sections and the keys that are
read (`Config.sections_outline`), so that its table for a section holds every setting of the section
(`Config.Holds`), and none of the defaults is used.
-/

namespace PeerFinder.Config

open Toml Reader

/-! ## What is written -/

/-- The sections of a document and their keys, in order. -/
def outline : List (String × List String) :=
  [("mdns", localNetKeys), ("seeds", seedKeys), ("dht", rendezvousKeys),
   ("coordinator", coordinatorKeys), ("store", storeKeys)]

/-- The keys that are written are those that are read. -/
theorem sections_outline (config : Config) :
    config.sections.map (fun part => (part.name, part.keys)) =
      outline.map fun (name, keys) => (name.toList, keys.map String.toList) := rfl

/-- The names of all sections and keys are written without quotes, and no two of a table are equal. -/
theorem outline_plain :
    (∀ entry ∈ outline, IsBare entry.1.toList ∧ (∀ key ∈ entry.2, IsBare key.toList) ∧ entry.2.Nodup) ∧
      (outline.map Prod.fst).Nodup := by
  decide

/-- The sections of a configuration need no quotes. -/
theorem sections_plain (config : Config) : ∀ part ∈ config.sections, part.IsPlain := by
  intro part hpart
  have hmem : (part.name, part.keys) ∈ config.sections.map fun part => (part.name, part.keys) :=
    List.mem_map_of_mem hpart
  rw [sections_outline] at hmem
  obtain ⟨⟨name, keys⟩, hentry, heq⟩ := List.mem_map.mp hmem
  obtain ⟨hname, hkeys⟩ := Prod.mk.inj heq
  obtain ⟨hbare, hbareKeys, hdistinct⟩ := outline_plain.1 _ hentry
  refine ⟨hname ▸ hbare, ?_, ?_⟩ <;> rw [← hkeys]
  · intro written hwritten
    obtain ⟨key, hkey, rfl⟩ := List.mem_map.mp hwritten
    exact hbareKeys _ hkey
  · exact List.Pairwise.map _ (fun _ _ hne heq => hne (String.toList_inj.mp heq)) hdistinct

/-- The sections of a configuration have different names. -/
theorem sections_distinct (config : Config) : (config.sections.map Section.name).Nodup := by
  have hnames : config.sections.map Section.name = (outline.map Prod.fst).map String.toList := rfl
  rw [hnames]
  exact List.Pairwise.map _ (fun _ _ hne heq => hne (String.toList_inj.mp heq)) outline_plain.2

/-! ## What is read -/

/-- The values of a table by name. -/
def byName (entries : Entries) (name : String) : Option Value :=
  entries.get? name.toList

variable {α : Type} {entries : Entries} {name : String}

/-- A setting that a table holds is read from its value there. -/
theorem setting_of_get {value : Value} {read? : Value → Option α} {read : α}
    (hget : entries.get? name.toList = some value) (hread : read? value = some read) (default : α) :
    setting (byName entries) name read? default = some read := by
  rw [setting, byName, hget]
  exact hread

/-- A table holds a key with its value. -/
def Holds (entries : Entries) (pair : Key × Field) : Prop :=
  entries.get? pair.1 = some pair.2.value

/-- The table of a section holds its keys with their values. -/
theorem holds_fields {fields : List (Key × Field)} (hdistinct : (fields.map Prod.fst).Nodup) :
    ∀ pair ∈ fields, Holds (fieldEntries fields) pair := by
  intro pair hpair
  have hkeys : (fieldEntries fields).keys = fields.map Prod.fst := by
    simp [Entries.keys, fieldEntries]
  refine Entries.get_of_mem (hkeys ▸ hdistinct) ?_
  exact List.mem_map_of_mem (f := fun (pair : Key × Field) => (pair.1, pair.2.value)) hpair

/-- A flag is read back. -/
theorem setting_flag {flag : Bool} (hheld : Holds entries (flagField name flag)) (default : Bool) :
    setting (byName entries) name flag? default = some flag :=
  setting_of_get hheld (show flag? (.boolean flag) = some flag from rfl) default

/-- A text is read back. -/
theorem setting_text {text : String} (hheld : Holds entries (textField name text)) (default : String) :
    setting (byName entries) name text? default = some text :=
  setting_of_get hheld (show text? (.text text.toList) = some text from
    congrArg some String.ofList_toList) default

/-- A list of texts is read back. -/
theorem setting_texts {texts : List String} (hheld : Holds entries (textsField name texts))
    (default : List String) : setting (byName entries) name texts? default = some texts := by
  refine setting_of_get hheld ?_ default
  show ((texts.map String.toList).map Value.text).mapM text? = some texts
  clear hheld
  induction texts with
  | nil => rfl
  | cons text texts ih => simp_all [text?]

/-- A number of 64 bits is read back. -/
theorem setting_word {word : UInt64} (hheld : Holds entries (wordField name word)) (default : UInt64) :
    setting (byName entries) name word? default = some word := by
  refine setting_of_get hheld ?_ default
  have hword : (word.toNat : Int) < UInt64.size := by exact_mod_cast word.toNat_lt
  show word? (.integer word.toNat) = some word
  rw [word?, if_pos ⟨by omega, hword⟩]
  simp

/-- A number of 32 bits is read back. -/
theorem setting_half_word {word : UInt32} (hheld : Holds entries (wordField name word.toUInt64))
    (default : UInt32) : setting (byName entries) name halfWord? default = some word := by
  refine setting_of_get hheld ?_ default
  have hword : (word.toNat : Int) < UInt32.size := by exact_mod_cast word.toNat_lt
  show halfWord? (.integer word.toUInt64.toNat) = some word
  rw [UInt32.toNat_toUInt64, halfWord?, if_pos ⟨by omega, hword⟩]
  simp

/-- A table with a header gives its values by name. -/
theorem fields_header (names : List String) (entries : Entries) :
    fields? names (.table .header entries) = some (byName entries) := by
  rw [fields?]
  rfl

/-- The settings of the local network are read back. -/
theorem read_local_net {settings : LocalNetSettings}
    (henabled : Holds entries (flagField "enabled" settings.enabled))
    (htag : Holds entries (textField "service_tag" settings.tag))
    (htimeout : Holds entries (wordField "query_timeout_secs" settings.queryTimeout))
    (hservices : Holds entries (textsField "services" settings.services)) :
    localNet? (.table .header entries) = some settings := by
  simp only [localNet?, fields_header, setting_flag henabled, setting_text htag,
    setting_word htimeout, setting_texts hservices, Option.bind_eq_bind, Option.bind_some]

/-- The settings of the seeds are read back. -/
theorem read_seeds {settings : SeedSettings}
    (henabled : Holds entries (flagField "enabled" settings.enabled))
    (haddresses : Holds entries (textsField "addrs" settings.addresses))
    (hattempts : Holds entries (wordField "attempts" settings.attempts.toUInt64))
    (hconnect : Holds entries (wordField "connect_timeout_secs" settings.connectTimeout))
    (hbackoff : Holds entries (wordField "initial_backoff_secs" settings.initialBackoff))
    (hsupervise : Holds entries (wordField "supervise_interval_secs" settings.superviseInterval))
    (hreconnect : Holds entries (wordField "reconnect_timeout_secs" settings.reconnectTimeout)) :
    seeds? (.table .header entries) = some settings := by
  simp only [seeds?, fields_header, setting_flag henabled, setting_texts haddresses,
    setting_half_word hattempts, setting_word hconnect, setting_word hbackoff,
    setting_word hsupervise, setting_word hreconnect, Option.bind_eq_bind, Option.bind_some]

/-- The settings of the lookups are read back. -/
theorem read_rendezvous {settings : RendezvousSettings}
    (henabled : Holds entries (flagField "enabled" settings.enabled))
    (hlabel : Holds entries (textField "rendezvous" settings.label))
    (hadvertise : Holds entries (wordField "advertise_interval_secs" settings.advertiseInterval))
    (htimeout : Holds entries (wordField "query_timeout_secs" settings.queryTimeout)) :
    rendezvous? (.table .header entries) = some settings := by
  simp only [rendezvous?, fields_header, setting_flag henabled, setting_text hlabel,
    setting_word hadvertise, setting_word htimeout, Option.bind_eq_bind, Option.bind_some]

/-- The settings of the coordinator are read back. -/
theorem read_coordinator {settings : CoordinatorSettings}
    (hsweep : Holds entries (wordField "sweep_interval_secs" settings.sweepInterval))
    (hlimit : Holds entries (wordField "query_limit" settings.queryLimit))
    (htimeout : Holds entries (wordField "query_timeout_secs" settings.queryTimeout))
    (hstats : Holds entries (wordField "stats_interval_secs" settings.statsInterval))
    (hauto : Holds entries (flagField "auto_connect" settings.autoConnect))
    (hconnect : Holds entries (wordField "connect_timeout_secs" settings.connectTimeout)) :
    coordinator? (.table .header entries) = some settings := by
  simp only [coordinator?, fields_header, setting_word hsweep, setting_word hlimit,
    setting_word htimeout, setting_word hstats, setting_flag hauto, setting_word hconnect,
    Option.bind_eq_bind, Option.bind_some]

/-- The settings of the store are read back. -/
theorem read_store {settings : StoreSettings}
    (hlimit : Holds entries (wordField "max_peers" settings.maxPeers))
    (hretention : Holds entries (wordField "retention_secs" settings.retention))
    (heviction : Holds entries (wordField "eviction_interval_secs" settings.evictionInterval)) :
    store? (.table .header entries) = some settings := by
  simp only [store?, fields_header, setting_word hlimit, setting_word hretention,
    setting_word heviction, Option.bind_eq_bind, Option.bind_some]

/-- The settings of all sections are read back. -/
theorem read_sections {config : Config} {localNet seeds rendezvous coordinator store : Value}
    (hlocalNet : entries.get? "mdns".toList = some localNet)
    (hreadLocalNet : localNet? localNet = some config.localNet)
    (hseeds : entries.get? "seeds".toList = some seeds)
    (hreadSeeds : seeds? seeds = some config.seeds)
    (hrendezvous : entries.get? "dht".toList = some rendezvous)
    (hreadRendezvous : rendezvous? rendezvous = some config.rendezvous)
    (hcoordinator : entries.get? "coordinator".toList = some coordinator)
    (hreadCoordinator : coordinator? coordinator = some config.coordinator)
    (hstore : entries.get? "store".toList = some store)
    (hreadStore : store? store = some config.store) : ofEntries? entries = some config := by
  rw [ofEntries?]
  change (setting (byName entries) "mdns" localNet? _).bind _ = _
  rw [setting_of_get hlocalNet hreadLocalNet]
  change (setting (byName entries) "seeds" seeds? _).bind _ = _
  rw [setting_of_get hseeds hreadSeeds]
  change (setting (byName entries) "dht" rendezvous? _).bind _ = _
  rw [setting_of_get hrendezvous hreadRendezvous]
  change (setting (byName entries) "coordinator" coordinator? _).bind _ = _
  rw [setting_of_get hcoordinator hreadCoordinator]
  change (setting (byName entries) "store" store? _).bind _ = _
  rw [setting_of_get hstore hreadStore]
  rfl

/-- The entries of the sections of a configuration are its settings. -/
theorem of_entries_sections (config : Config) :
    ofEntries? (config.sections.map Section.entry) = some config := by
  have hheld : ∀ part ∈ config.sections, ∀ pair ∈ part.fields,
      Holds (fieldEntries part.fields) pair :=
    fun part hpart => holds_fields (sections_plain config part hpart).distinct
  have hget : ∀ part ∈ config.sections,
      Entries.get? (config.sections.map Section.entry) part.name = some part.entry.2 :=
    fun part hpart => Entries.get_of_mem (sections_distinct config) (List.mem_map_of_mem hpart)
  -- From here on the entries matter only as a table that holds these sections.
  generalize config.sections.map Section.entry = entries at hget
  simp only [sections, List.forall_mem_cons] at hheld hget
  obtain ⟨hlocalNet, hseeds, hrendezvous, hcoordinator, hstore, -⟩ := hget
  obtain ⟨hheldLocalNet, hheldSeeds, hheldRendezvous, hheldCoordinator, hheldStore, -⟩ := hheld
  refine read_sections hlocalNet ?_ hseeds ?_ hrendezvous ?_ hcoordinator ?_ hstore ?_
  · obtain ⟨henabled, htag, htimeout, hservices, -⟩ := hheldLocalNet
    exact read_local_net henabled htag htimeout hservices
  · obtain ⟨henabled, haddresses, hattempts, hconnect, hbackoff, hsupervise, hreconnect, -⟩ :=
      hheldSeeds
    exact read_seeds henabled haddresses hattempts hconnect hbackoff hsupervise hreconnect
  · obtain ⟨henabled, hlabel, hadvertise, htimeout, -⟩ := hheldRendezvous
    exact read_rendezvous henabled hlabel hadvertise htimeout
  · obtain ⟨hsweep, hlimit, htimeout, hstats, hauto, hconnect, -⟩ := hheldCoordinator
    exact read_coordinator hsweep hlimit htimeout hstats hauto hconnect
  · obtain ⟨hlimit, hretention, heviction, -⟩ := hheldStore
    exact read_store hlimit hretention heviction

/-! ## Round trip -/

/-- The settings of a text are those of its entries. -/
theorem parse_of_entries {text : List Char} (hparse : Toml.parse? text = some entries) :
    parse? (String.ofList text) = ofEntries? entries := by
  rw [parse?, String.toList_ofList, hparse]
  rfl

/-- A configuration that was written is read back with every setting. -/
theorem parse_of_render {config : Config} {text : String} (hrender : config.render? = some text) :
    parse? text = some config := by
  obtain ⟨characters, hcharacters, rfl⟩ := Option.map_eq_some_iff.mp hrender
  have hparse := Toml.parse_render (sections_plain config) (sections_distinct config) hcharacters
  exact (parse_of_entries hparse).trans (of_entries_sections config)

/-- Texts with quotes, backslashes, line breaks and control characters, lists of several lengths, and
the largest number come back. -/
theorem parse_of_render_quotes :
    let config : Config := {
      localNet :=
        ⟨false, "\"\"\"'''\\ \r\n\x00", UInt64.ofNat (2 ^ 63 - 1), ["'", "\"", "a, b\n"]⟩
      seeds.addresses := ["[store]\nmax_peers = 1"]
      seeds.attempts := UInt32.ofNat (2 ^ 32 - 1)
      rendezvous.label := "\x7f\t日本語" }
    ∃ text, config.render? = some text ∧ parse? text = some config := by
  intro config
  have hrenders : config.render?.isSome = true := by decide +kernel
  obtain ⟨text, htext⟩ := Option.isSome_iff_exists.mp hrenders
  exact ⟨text, htext, parse_of_render htext⟩

end PeerFinder.Config
