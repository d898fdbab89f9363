import PeerFinder.Config.Override
import PeerFinder.Mechanism.Assembly
import PeerFinder.Proofs.Seed.Texts

/-!
# Seeds given as an override

The override of the seed list is cut at its commas, and what is read in the pieces are the seeds of
the mechanism, of which the first of each identity counts. So seeds that are written with commas in
between arrive as they are and in their order, whatever white space, empty pieces and malformed
pieces are among them and whatever the configuration listed before (`Seed.arrive_from_override`).
-/

namespace PeerFinder

namespace Text.Blank

/-- A text is its inner part with white space at its two ends. -/
theorem exists_trim_eq (text : List Char) :
    ∃ left right, AllBlank left ∧ AllBlank right ∧ text = left ++ trim text ++ right := by
  let rest := text.dropWhile isBlank
  refine ⟨text.takeWhile isBlank, (rest.reverse.takeWhile isBlank).reverse,
    fun character hmem => List.mem_takeWhile_imp hmem,
    fun character hmem => List.mem_takeWhile_imp (List.mem_reverse.1 hmem), ?_⟩
  have hrest : trim text ++ (rest.reverse.takeWhile isBlank).reverse = rest := by
    rw [trim, ← List.reverse_append, List.takeWhile_append_dropWhile, List.reverse_reverse]
  rw [List.append_assoc, hrest, List.takeWhile_append_dropWhile]

/-- Nothing is left of a text that is all white space. -/
theorem trim_eq_nil {text : List Char} (htext : AllBlank text) : trim text = [] := by
  rw [trim, List.dropWhile_eq_nil_iff.2 htext]
  rfl

end Text.Blank

namespace Config

/-- Entries without commas come out of their text as they went in. -/
theorem split_on_intercalate {entries : List String}
    (hentries : ∀ entry ∈ entries, ',' ∉ entry.toList) (hsome : entries ≠ []) :
    (",".intercalate entries).toList.splitOn ',' = entries.map String.toList := by
  rw [String.toList_intercalate]
  refine List.splitOn_intercalate ',' (fun entry hmem => ?_) (by simpa using hsome)
  obtain ⟨text, htext, rfl⟩ := List.mem_map.1 hmem
  exact hentries text htext

end Config

namespace Seed

open Text.Blank (AllBlank)

/-- The seed in a text, if it holds one. -/
def seed? (text : String) : Option Seed :=
  (Seed.parse text).toOption

/-- A text holds a seed if that is read from it. -/
theorem seed_eq_some_iff {text : String} {seed : Seed} :
    seed? text = some seed ↔ Seed.parse text = .ok seed := by
  unfold seed?
  cases Seed.parse text <;> simp [Except.toOption]

/-- A text holds the seed that its inner part holds. -/
theorem seed_of_trim (text : String) :
    seed? (String.ofList (Text.Blank.trim text.toList)) = seed? text := by
  obtain ⟨left, right, hleft, hright, htext⟩ := Text.Blank.exists_trim_eq text.toList
  have hread : Seed.read text.toList = Seed.read (Text.Blank.trim text.toList) := by
    conv_lhs => rw [htext]
    exact read_append_blank hleft hright _
  ext seed
  rw [seed_eq_some_iff, seed_eq_some_iff, parse_eq_ok_iff, parse_eq_ok_iff, hread,
    String.toList_ofList]

/-- White space holds no seed. -/
theorem seed_of_blank {text : String} (htext : AllBlank text.toList) : seed? text = none := by
  have hnil : seed? (String.ofList []) = none := by decide
  rw [← seed_of_trim, Text.Blank.trim_eq_nil htext, hnil]

/-- The seeds of an override are those that its pieces hold. -/
theorem read_all_override (text : String) :
    (Service.readAll (Config.overrideList text)).1 =
      ((text.toList.splitOn ',').map String.ofList).filterMap seed? := by
  have hread : ∀ texts : List String, (Service.readAll texts).1 = texts.filterMap seed? :=
    fun texts => List.filterMap_map
  rw [hread, Config.overrideList]
  generalize text.toList.splitOn ',' = pieces
  induction pieces with
  | nil => rfl
  | cons piece pieces ih =>
      have htrim := seed_of_trim (String.ofList piece)
      rw [String.toList_ofList] at htrim
      by_cases hnil : Text.Blank.trim piece = []
      · -- A blank piece is left out before it is read.
        have hnone : seed? (String.ofList piece) = none := by
          rw [← htrim, hnil]
          decide
        simpa [hnil, hnone] using ih
      · simp only [List.map_cons, List.filter_cons, hnil, decide_not, decide_false, Bool.not_false,
          if_true, List.filterMap_cons, htrim]
        simp only [decide_not] at ih
        rw [ih]

/-- The seeds whose identity no seed before them has. -/
def firsts : List Seed → List Seed
  | [] => []
  | seed :: rest => seed :: (firsts rest).filter (·.id ≠ seed.id)

/-- Adding seeds to a list one by one adds the first of each identity that is not listed. -/
theorem foldl_add_to_eq (listed added : List Seed) :
    added.foldl Service.addTo listed =
      listed ++ (firsts added).filter fun seed => !listed.any (·.id == seed.id) := by
  induction added generalizing listed with
  | nil => simp [firsts]
  | cons seed rest ih =>
      rw [List.foldl_cons, ih, Service.addTo, firsts]
      by_cases hlisted : listed.any (·.id == seed.id)
      · -- What has the identity of `seed` is left out as being listed already.
        rw [if_pos hlisted, List.filter_cons_of_neg (by simpa using hlisted), List.filter_filter]
        congr 1
        refine List.filter_congr fun other _ => ?_
        by_cases hsame : other.id = seed.id
        · simp [hsame, hlisted]
        · simp [hsame]
      · rw [if_neg hlisted, List.filter_cons_of_pos (by simpa using hlisted), List.filter_filter,
          List.append_assoc, List.singleton_append]
        congr 2
        refine List.filter_congr fun other _ => ?_
        by_cases hsame : other.id = seed.id
        · simp [hsame]
        · simp [hsame, Ne.symm hsame]

/-- The seeds of a mechanism are the first ones of the given list. -/
theorem seeds_of_seeds (seeds : List Seed) (shutdown : Token) :
    (Service.ofSeeds seeds shutdown).seeds = firsts seeds := by
  simp [Service.ofSeeds, foldl_add_to_eq]

/-- The entries of an override and the seeds that are written in them: the texts of the seeds in
their order, with any white space around them, among which there may be entries of white space and
entries without commas that are no seeds. -/
inductive Listed : List String → List Seed → Prop where
  | nil : Listed [] []
  | seed {entries : List String} {seeds : List Seed} {seed : Seed} {left right : String}
      (hflow : seed.address.flow = 0) (hleft : AllBlank left.toList)
      (hright : AllBlank right.toList) (hrest : Listed entries seeds) :
      Listed ((left ++ seed.text ++ right) :: entries) (seed :: seeds)
  | blank {entries : List String} {seeds : List Seed} {entry : String}
      (hblank : AllBlank entry.toList) (hrest : Listed entries seeds) :
      Listed (entry :: entries) seeds
  | malformed {entries : List String} {seeds : List Seed} {entry : String}
      (hcomma : ',' ∉ entry.toList) (hbad : ∀ seed, Seed.parse entry ≠ .ok seed)
      (hrest : Listed entries seeds) : Listed (entry :: entries) seeds

namespace Listed

variable {entries : List String} {seeds : List Seed}

/-- White space has no commas. -/
theorem comma_not_mem_blank {text : List Char} (htext : AllBlank text) : ',' ∉ text :=
  fun hmem => absurd (htext ',' hmem) (by decide)

/-- No entry has commas. -/
theorem comma_not_mem (hlisted : Listed entries seeds) :
    ∀ entry ∈ entries, ',' ∉ entry.toList := by
  induction hlisted with
  | nil => exact fun _ hmem => absurd hmem List.not_mem_nil
  | @seed entries seeds seed left right _ hleft hright _ ih =>
      refine List.forall_mem_cons.2 ⟨?_, ih⟩
      have htext : ',' ∉ seed.text.toList :=
        fun hmem => absurd (text_subset_alphabet seed hmem) (by decide)
      simpa using ⟨comma_not_mem_blank hleft, htext, comma_not_mem_blank hright⟩
  | blank hblank _ ih => exact List.forall_mem_cons.2 ⟨comma_not_mem_blank hblank, ih⟩
  | malformed hcomma _ _ ih => exact List.forall_mem_cons.2 ⟨hcomma, ih⟩

/-- The entries hold the seeds that are written in them. -/
theorem filter_map_eq (hlisted : Listed entries seeds) : entries.filterMap seed? = seeds := by
  induction hlisted with
  | nil => rfl
  | @seed entries seeds seed left right hflow hleft hright _ ih =>
      have hseed : seed? (left ++ seed.text ++ right) = some seed := by
        rw [seed_eq_some_iff, parse_eq_ok_iff, String.toList_append, String.toList_append,
          read_append_blank hleft hright]
        exact read_text hflow
      rw [List.filterMap_cons_some hseed, ih]
  | blank hblank _ ih => rw [List.filterMap_cons_none (seed_of_blank hblank), ih]
  | @malformed entries seeds entry _ hbad _ ih =>
      have hnone : seed? entry = none :=
        Option.eq_none_iff_forall_ne_some.2 fun seed hseed => hbad seed (seed_eq_some_iff.1 hseed)
      rw [List.filterMap_cons_none hnone, ih]

/-- An override with these entries is read as the seeds that are written in them. -/
theorem read_all_eq (hlisted : Listed entries seeds) :
    (Service.readAll (Config.overrideList (",".intercalate entries))).1 = seeds := by
  rw [read_all_override]
  by_cases hsome : entries = []
  · subst hsome
    cases hlisted
    decide
  · have htexts : entries.map (String.ofList ∘ String.toList) = entries := by simp
    rw [Config.split_on_intercalate hlisted.comma_not_mem hsome, List.map_map, htexts,
      hlisted.filter_map_eq]

end Listed

/-- The mechanism of the seeds in texts is added at the end. -/
theorem mechanisms_add_seed_texts (env : Environment) (texts : List String) (policy : Policy) :
    ∃ shutdown, (env.addSeedTexts texts policy).2.mechanisms = env.mechanisms ++
      [.seeds { Service.ofSeeds (Service.readAll texts).1 shutdown with policy := policy }] := by
  have hnote : ∀ (errors : List Error) (env : Environment),
      (errors.foldl (fun env error => env.note (.seedIgnored error)) env).mechanisms =
        env.mechanisms := by
    intro errors
    induction errors with
    | nil => exact fun env => rfl
    | cons error rest ih => exact fun env => ih _
  exact ⟨_, congrArg (· ++ _) (hnote _ env)⟩

/-- Seeds whose texts are given as an override arrive in the mechanism in their order, and of
several with one identity the first one does. It makes no difference what the configuration listed
before, and malformed entries only drop out themselves. -/
theorem arrive_from_override {entries : List String} {seeds : List Seed}
    (hlisted : Listed entries seeds) (lookup : String → Option String)
    (hlookup : lookup "SEEDS" = some (",".intercalate entries)) (config : Config)
    (env : Environment) (policy : Policy) :
    ∃ service : Service, service.seeds = firsts seeds ∧
      (env.addSeedTexts (config.override lookup).seeds.addresses policy).2.mechanisms =
        env.mechanisms ++ [.seeds service] := by
  have htexts : (config.override lookup).seeds.addresses =
      Config.overrideList (",".intercalate entries) := by
    simp [Config.override, hlookup]
  obtain ⟨shutdown, hadded⟩ :=
    mechanisms_add_seed_texts env (config.override lookup).seeds.addresses policy
  refine ⟨_, ?_, hadded⟩
  rw [htexts, hlisted.read_all_eq]
  exact seeds_of_seeds seeds shutdown

/-- That node at an address without a scope. -/
def elsewhere : Seed :=
  { linkLocal with address := .v4 ⟨10, 0, 0, 5⟩ 4001 }

/-- Another node at that address. -/
def neighbour : Seed where
  id := ⟨29 :: List.replicate 31 0, rfl, by decide +kernel⟩
  address := .v4 ⟨10, 0, 0, 5⟩ 4001

/-- The texts of three seeds among white space and a malformed entry. -/
def scattered : List String :=
  [" " ++ linkLocal.text ++ "", "", "10.0.0.5:4001", "" ++ neighbour.text ++ "\t", " ",
    "\n" ++ elsewhere.text ++ " "]

/-- Of two seeds of one node among three the second is left out, and so is the seed that the
configuration listed. -/
theorem arrive_from_override_scattered :
    Listed scattered [linkLocal, neighbour, elsewhere] ∧
      firsts [linkLocal, neighbour, elsewhere] = [linkLocal, neighbour] ∧
      ∃ service : Service, service.seeds = [linkLocal, neighbour] ∧
        (Environment.addSeedTexts { transport := { localId := neighbour.id } }
          (Config.override (fun _ => some (",".intercalate scattered))
            { seeds := { addresses := [elsewhere.text] } }).seeds.addresses {}).2.mechanisms =
          [.seeds service] := by
  have hbad : ∀ seed, Seed.parse "10.0.0.5:4001" ≠ .ok seed := by
    have hnone : seed? "10.0.0.5:4001" = none := by decide +kernel
    exact fun seed hread => Option.some_ne_none seed (hnone ▸ seed_eq_some_iff.2 hread).symm
  have hempty : AllBlank "".toList := by decide
  have hspace : AllBlank " ".toList := by decide
  have htab : AllBlank "\t".toList := by decide
  have hline : AllBlank "\n".toList := by decide
  have hlisted : Listed scattered [linkLocal, neighbour, elsewhere] :=
    .seed rfl hspace hempty <| .blank hempty <| .malformed (by decide) hbad <|
      .seed rfl hempty htab <| .blank hspace <| .seed rfl hline hspace .nil
  have hfirsts : firsts [linkLocal, neighbour, elsewhere] = [linkLocal, neighbour] := by
    decide +kernel
  refine ⟨hlisted, hfirsts, ?_⟩
  have harrive := arrive_from_override hlisted (fun _ => some _) rfl
    { seeds := { addresses := [elsewhere.text] } } { transport := { localId := neighbour.id } } {}
  simpa only [hfirsts, List.nil_append] using harrive

end Seed

end PeerFinder
