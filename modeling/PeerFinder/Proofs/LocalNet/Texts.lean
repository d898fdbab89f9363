import PeerFinder.Announcement

/-!
# Texts of announcements

The text of an announcement is its tag and its services with separators in between, and a listener
splits it at every separator. Names without separators come out as they went in
(`Announcement.split_on_render`), and the first field of any text is all before its first separator
(`Announcement.exists_split_on_eq`). So an announcement is heard under its own tag and under no other
one (`Announcement.heard_exactly_under_tag`).
-/

namespace PeerFinder.Announcement

/-- A tag and services are written with separators between them. -/
theorem render_eq_intercalate (tag : List Char) (services : List (List Char)) :
    render tag services = [separator].intercalate (tag :: services) := by
  induction services generalizing tag with
  | nil => simp [render, List.intercalate]
  | cons service rest ih =>
      have hfirst : render tag (service :: rest) = tag ++ [separator] ++ render service rest := by
        simp [render]
      rw [hfirst, ih, List.intercalate_cons_of_ne_nil (List.cons_ne_nil service rest)]

/-- A tag and services without separators are read as they were written. -/
theorem split_on_render {tag : List Char} {services : List (List Char)} (htag : separator ∉ tag)
    (hservices : ∀ service ∈ services, separator ∉ service) :
    (render tag services).splitOn separator = tag :: services := by
  rw [render_eq_intercalate]
  exact List.splitOn_intercalate separator (List.forall_mem_cons.2 ⟨htag, hservices⟩)
    (List.cons_ne_nil tag services)

/-- The first field of a text is all that stands before its first separator. -/
theorem exists_split_on_eq (text : List Char) :
    ∃ others, text.splitOn separator = text.takeWhile (· ≠ separator) :: others := by
  induction text with
  | nil => exact ⟨[], rfl⟩
  | cons character rest ih =>
      obtain ⟨others, hrest⟩ := ih
      have hsplit : (character :: rest).splitOn separator =
          if character == separator then [] :: rest.splitOn separator
          else (rest.splitOn separator).modifyHead (List.cons character) :=
        List.splitOnP_cons_eq_if_modifyHead character rest
      rw [hsplit]
      by_cases hcut : character = separator
      · exact ⟨rest.splitOn separator, by simp [hcut]⟩
      · exact ⟨others, by simp [hcut, hrest]⟩

/-- A text is read under a tag exactly if the tag stands before its first separator. -/
theorem services_is_some_iff (tag data : String) :
    (services? tag data).isSome ↔ data.toList.takeWhile (· ≠ separator) = tag.toList := by
  obtain ⟨others, hfields⟩ := exists_split_on_eq data.toList
  rw [services?, hfields]
  dsimp only
  split <;> simp_all

/-- The text of a tag and services is read under that tag as these services, and under no other
tag. -/
theorem services_of_encode {tag : String} {services : List String} {text : String}
    (htag : separator ∉ tag.toList)
    (hservices : ∀ service ∈ services, service ≠ "" ∧ separator ∉ service.toList)
    (hencode : encode tag services = .ok text) (listener : String) :
    services? listener text = if listener = tag then some services else none := by
  have htext : text.toList = render tag.toList (services.map String.toList) := by
    unfold encode at hencode
    dsimp only at hencode
    split at hencode
    · cases hencode
      exact String.toList_ofList
    · cases hencode
  have hfields : text.toList.splitOn separator = tag.toList :: services.map String.toList := by
    rw [htext]
    refine split_on_render htag fun field hmem => ?_
    obtain ⟨service, hservice, rfl⟩ := List.mem_map.1 hmem
    exact (hservices service hservice).2
  -- No field is left out, as no service is empty.
  have hkept : (services.map String.toList).filter (fun field => !field.isEmpty) =
      services.map String.toList := by
    rw [List.filter_eq_self]
    intro field hmem
    obtain ⟨service, hservice, rfl⟩ := List.mem_map.1 hmem
    simpa using (hservices service hservice).1
  rw [services?, hfields]
  dsimp only
  rw [hkept, List.map_map]
  simp [String.toList_inj, eq_comm]

/-- A set is made up of its elements in order. -/
theorem of_list_to_list (services : ServiceSet) : .ofList services.toList = services := by
  apply Std.ExtTreeSet.ext_mem
  simp

/-- What a node announces under a tag with its services is heard by every listener with that tag, as
this node with these addresses and these services, and by no listener with another tag. Whatever the
text of an announcement, it is heard exactly by listeners whose tag is all that stands before the
first separator. -/
theorem heard_exactly_under_tag (tag : String) (services : ServiceSet)
    (htag : separator ∉ tag.toList)
    (hservices : ∀ service ∈ services, service ≠ "" ∧ separator ∉ service.toList)
    (listener : String) (info : PeerInfo) :
    (∀ text, encode tag services.toList = .ok text →
      sighting? listener ⟨info, some text⟩ =
        if listener = tag then some ⟨info, services⟩ else none) ∧
    ∀ data : String, (sighting? listener ⟨info, some data⟩).isSome ↔
      data.toList.takeWhile (· ≠ separator) = listener.toList := by
  refine ⟨fun text hencode => ?_, fun data => ?_⟩
  · have hread := services_of_encode htag
      (fun service hmem => hservices service (Std.ExtTreeSet.mem_toList.1 hmem)) hencode listener
    simp only [sighting?, Option.bind_eq_bind, Option.bind_some, hread]
    split
    · rw [Option.bind_some, of_list_to_list]
    · rfl
  · rw [← services_is_some_iff]
    simp only [sighting?, Option.bind_eq_bind, Option.bind_some]
    cases services? listener data <;> simp

/-- A node at `10.0.0.5:4001`. -/
def loneNode : PeerInfo :=
  .ofList ⟨27 :: List.replicate 31 0, rfl, by decide +kernel⟩ [.v4 ⟨10, 0, 0, 5⟩ 4001]

/-- Two services, given in any order. -/
def twoServices : ServiceSet :=
  .ofList ["storage", "inference"]

/-- A node that announces two services is heard with both under its tag, and not under a tag that
its own one begins with. -/
theorem heard_exactly_under_tag_two :
    separator ∉ "realm".toList ∧
      (∀ service ∈ twoServices, service ≠ "" ∧ separator ∉ service.toList) ∧
      encode "realm" twoServices.toList = .ok "realm,inference,storage" ∧
      sighting? "realm" ⟨loneNode, some "realm,inference,storage"⟩ = some ⟨loneNode, twoServices⟩ ∧
      sighting? "rea" ⟨loneNode, some "realm,inference,storage"⟩ = none := by
  have hservices : ∀ service ∈ twoServices, service ≠ "" ∧ separator ∉ service.toList := by
    intro service hmem
    have hlisted : service = "inference" ∨ service = "storage" := by
      simpa [twoServices, or_comm] using hmem
    rcases hlisted with rfl | rfl <;> decide
  have hencode : encode "realm" twoServices.toList = .ok "realm,inference,storage" := by
    rw [show twoServices.toList = ["inference", "storage"] by decide]
    rfl
  have hheard := fun listener =>
    (heard_exactly_under_tag "realm" twoServices (by decide) hservices listener loneNode).1 _ hencode
  exact ⟨by decide, hservices, hencode, hheard "realm", hheard "rea"⟩

end PeerFinder.Announcement
