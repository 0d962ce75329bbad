import ClientGen.Proofs.Config.DigestInput
import ClientGen.Proofs.Data.Dict

/-! # Fingerprints of configurations

A fingerprint stands for its configuration as far as each table and list ends where the next one
begins. Only the name of the next one tells where that is, so a key or an item with that name moves
the boundary, and another configuration has the same digest input. Digest inputs differ whenever
configurations do exactly as long as these names are out of use.
-/
namespace ClientGen.Config

/-- What validation lets through, whatever it calls the source. -/
def Accepted (c : Config) : Prop :=
  ∃ origin, c.validate origin = .ok c

theorem accepted_iff {c : Config} : c.Accepted ↔
    c.version = supportedVersion ∧ ∀ k ∈ c.naming.operationIds.keys, isOverrideKey k = true := by
  unfold Accepted validate
  by_cases hversion : c.version = supportedVersion
  · cases hfind : c.naming.operationIds.keys.find? (! isOverrideKey ·) with
    | none =>
      have hall : ∀ k ∈ c.naming.operationIds.keys, isOverrideKey k = true := by
        simpa using List.find?_eq_none.mp hfind
      simp only [hversion, ne_eq, not_true_eq_false, if_false]
      exact ⟨fun _ => ⟨trivial,hall⟩,fun _ => ⟨"",rfl⟩⟩
    | some key =>
      have hkey := List.find?_some hfind
      have hmem := List.mem_of_find?_eq_some hfind
      simp only [hversion, ne_eq, not_true_eq_false, if_false, true_and]
      constructor
      · rintro ⟨_,h⟩
        cases h
      · intro h
        rw [h key hmem] at hkey
        cases hkey
  · simp only [hversion, ne_eq, not_false_eq_true, if_true, false_and, iff_false]
    rintro ⟨_,h⟩
    cases h

/-! ## Where sections end -/

/-- A list ends where the name after it comes first. -/
theorem list_inj {name : String} {xs ys xs' ys' : List String} (hx : name ∉ xs) (hx' : name ∉ xs')
    (h : xs ++ name :: ys = xs' ++ name :: ys') : xs = xs' ∧ ys = ys' := by
  induction xs generalizing xs' with
  | nil =>
    cases xs' with
    | nil => exact ⟨rfl,(List.cons.inj h).2⟩
    | cons x' xs' => exact absurd ((List.cons.inj h).1 ▸ List.mem_cons_self) hx'
  | cons x xs ih =>
    cases xs' with
    | nil => exact absurd ((List.cons.inj h).1 ▸ List.mem_cons_self) hx
    | cons x' xs' =>
      obtain ⟨rfl,htail⟩ := List.cons.inj h
      have hrest := ih (fun hm => hx (List.mem_cons_of_mem _ hm))
        (fun hm => hx' (List.mem_cons_of_mem _ hm)) htail
      exact ⟨congrArg _ hrest.1,hrest.2⟩

/-- Keys and values in turn. -/
def pairTexts (es : List (String × String)) : List String :=
  es.flatMap fun (k,v) => [k,v]

/-- A table ends where the name after it comes first in the place of a key. -/
theorem table_inj {name : String} {es es' : List (String × String)} {ys ys' : List String}
    (hk : name ∉ es.map (·.1)) (hk' : name ∉ es'.map (·.1))
    (h : pairTexts es ++ name :: ys = pairTexts es' ++ name :: ys') : es = es' ∧ ys = ys' := by
  induction es generalizing es' with
  | nil =>
    cases es' with
    | nil => exact ⟨rfl,(List.cons.inj h).2⟩
    | cons e' es' => exact absurd ((List.cons.inj h).1 ▸ List.mem_cons_self) hk'
  | cons e es ih =>
    cases es' with
    | nil => exact absurd ((List.cons.inj h).1 ▸ List.mem_cons_self) hk
    | cons e' es' =>
      obtain ⟨hkey,h⟩ := List.cons.inj h
      obtain ⟨hvalue,htail⟩ := List.cons.inj h
      have hrest := ih (fun hm => hk (List.mem_cons_of_mem _ hm))
        (fun hm => hk' (List.mem_cons_of_mem _ hm)) htail
      rw [Prod.ext hkey hvalue, hrest.1]
      exact ⟨rfl,hrest.2⟩

/-- No table and no list contains the name of the one after it. The first table cannot: its keys are
checked. -/
structure Sectioned (c : Config) : Prop where
  services : "service_packages" ∉ c.naming.operationServices.keys
  packages : "service_keywords" ∉ c.naming.servicePackages.keys
  keywords : "routing_prefixes" ∉ c.naming.keywords
  prefixes : "preserved_names" ∉ c.naming.routingPrefixes

/-- The texts of a configuration, each section up to the name of the next. -/
theorem fields_eq (c : Config) : c.fields =
    "operation_id_overrides" :: (pairTexts c.naming.operationIds.entries ++
    "operation_services" :: (pairTexts c.naming.operationServices.entries ++
    "service_packages" :: (pairTexts c.naming.servicePackages.entries ++
    "service_keywords" :: (c.naming.keywords ++
    "routing_prefixes" :: (c.naming.routingPrefixes ++
    "preserved_names" :: (c.preservedNames ++ [c.naming.routingStrip,c.rootSegment])))))) := by
  simp only [fields, tableFields, pairTexts, List.append_assoc, List.cons_append]

theorem eq_of_fields_eq {c c' : Config} (hc : c.Accepted) (hc' : c'.Accepted) (hs : c.Sectioned)
    (hs' : c'.Sectioned) (h : c.fields = c'.fields) : c = c' := by
  obtain ⟨hversion,hkeys⟩ := accepted_iff.mp hc
  obtain ⟨hversion',hkeys'⟩ := accepted_iff.mp hc'
  have hname : isOverrideKey "operation_services" = false := by decide
  have hids : "operation_services" ∉ c.naming.operationIds.keys := by
    intro hmem
    rw [hkeys _ hmem] at hname
    cases hname
  have hids' : "operation_services" ∉ c'.naming.operationIds.keys := by
    intro hmem
    rw [hkeys' _ hmem] at hname
    cases hname
  rw [fields_eq, fields_eq] at h
  obtain ⟨hoperationIds,h⟩ := table_inj hids hids' (List.cons.inj h).2
  obtain ⟨hservices,h⟩ := table_inj hs.services hs'.services h
  obtain ⟨hpackages,h⟩ := table_inj hs.packages hs'.packages h
  obtain ⟨hkeywords,h⟩ := list_inj hs.keywords hs'.keywords h
  obtain ⟨hprefixes,h⟩ := list_inj hs.prefixes hs'.prefixes h
  obtain ⟨hpreserved,hlast⟩ := List.append_inj' h rfl
  obtain ⟨hstrip,hroot⟩ := List.cons.inj hlast
  obtain ⟨version,⟨ids,services,packages,keywords,prefixes,strip⟩,preserved,root⟩ := c
  obtain ⟨version',⟨ids',services',packages',keywords',prefixes',strip'⟩,preserved',root'⟩ := c'
  cases hversion.trans hversion'.symm
  cases Dict.ext hoperationIds
  cases Dict.ext hservices
  cases Dict.ext hpackages
  cases hkeywords
  cases hprefixes
  cases hpreserved
  cases hstrip
  cases hroot
  rfl

/-! ## Words in use -/

theorem Accepted.version_lt {c : Config} (h : c.Accepted) : c.version < 256 ^ 4 := by
  rw [(accepted_iff.mp h).1]
  decide

/-- The names that end a section of free length. -/
def sectionNames : List String :=
  ["service_packages","service_keywords","routing_prefixes","preserved_names"]

/-- What the sections in front of these names hold as keys and items is among the words. -/
structure Over (words : String → Prop) (c : Config) : Prop where
  services : ∀ k ∈ c.naming.operationServices.keys, words k
  packages : ∀ k ∈ c.naming.servicePackages.keys, words k
  keywords : ∀ k ∈ c.naming.keywords, words k
  prefixes : ∀ k ∈ c.naming.routingPrefixes, words k

theorem Over.sectioned {words : String → Prop} {c : Config} (h : c.Over words)
    (hw : ∀ name ∈ sectionNames, ¬ words name) : c.Sectioned where
  services hm := hw _ (by decide) (h.services _ hm)
  packages hm := hw _ (by decide) (h.packages _ hm)
  keywords hm := hw _ (by decide) (h.keywords _ hm)
  prefixes hm := hw _ (by decide) (h.prefixes _ hm)

/-- A configuration over the words that validation accepts. -/
structure Proper (words : String → Prop) (c : Config) : Prop where
  accepted : c.Accepted
  sized : Sized c.fields
  vocabulary : c.Over words

/-- The digest inputs of different configurations over the words are different. -/
def Separates (words : String → Prop) : Prop :=
  ∀ c c' : Config, c.Proper words → c'.Proper words → c.digestInput = c'.digestInput → c = c'

theorem separates_of_sectioned {words : String → Prop}
    (hw : ∀ name ∈ sectionNames, ¬ words name) : Separates words := by
  intro c c' hc hc' h
  obtain ⟨_,hfields⟩ := (digestInput_eq_iff_fields hc.accepted.version_lt hc'.accepted.version_lt
    hc.sized hc'.sized).mp h
  exact eq_of_fields_eq hc.accepted hc'.accepted (hc.vocabulary.sectioned hw)
    (hc'.vocabulary.sectioned hw) hfields

/-- Only these sections hold anything. -/
def withSections (services packages : List (String × String))
    (keywords routingPrefixes preservedNames : List String) : Config where
  version := supportedVersion
  naming := {
    operationIds := .empty
    operationServices := .ofList services
    servicePackages := .ofList packages
    keywords
    routingPrefixes
    routingStrip := "" }
  preservedNames
  rootSegment := ""

section Collisions
variable {services packages : List (String × String)}
variable {keywords routingPrefixes preservedNames : List String}
variable {words : String → Prop}

theorem proper_withSections
    (hwords : ∀ k ∈ services.map (·.1) ++ packages.map (·.1) ++ keywords ++ routingPrefixes,
      words k)
    (hsized :
      Sized (withSections services packages keywords routingPrefixes preservedNames).fields) :
    (withSections services packages keywords routingPrefixes preservedNames).Proper words where
  accepted := ⟨"",rfl⟩
  sized := hsized
  vocabulary := {
    services := fun k hk => hwords k (by simp_all [withSections, Dict.mem_keys_ofList])
    packages := fun k hk => hwords k (by simp_all [withSections, Dict.mem_keys_ofList])
    keywords := fun k hk => hwords k (by simp_all [withSections])
    prefixes := fun k hk => hwords k (by simp_all [withSections]) }

/-- The name of a section as a word may come before or after the name itself. -/
theorem exists_collision {name : String} (hname : name ∈ sectionNames) (hword : words name) :
    ∃ c c' : Config, c.Proper words ∧ c'.Proper words ∧ c.digestInput = c'.digestInput ∧
      c ≠ c' := by
  simp only [sectionNames, List.mem_cons, List.not_mem_nil, or_false] at hname
  rcases hname with rfl | rfl | rfl | rfl
  · exact ⟨withSections [("service_packages","service_packages")] [] [] [] [],
      withSections [] [("service_packages","service_packages")] [] [] [],
      proper_withSections (by simpa) (by decide +kernel),
      proper_withSections (by simpa) (by decide +kernel),rfl,by decide⟩
  · exact ⟨withSections [] [("service_keywords","service_keywords")] [] [] [],
      withSections [] [] ["service_keywords","service_keywords"] [] [],
      proper_withSections (by simpa) (by decide +kernel),
      proper_withSections (by simpa) (by decide +kernel),rfl,by decide⟩
  · exact ⟨withSections [] [] ["routing_prefixes"] [] [],
      withSections [] [] [] ["routing_prefixes"] [],
      proper_withSections (by simpa) (by decide +kernel),
      proper_withSections (by simpa) (by decide +kernel),rfl,by decide⟩
  · exact ⟨withSections [] [] [] ["preserved_names"] [],
      withSections [] [] [] [] ["preserved_names"],
      proper_withSections (by simpa) (by decide +kernel),
      proper_withSections (by simp) (by decide +kernel),rfl,by decide⟩

end Collisions

/-- Digest inputs tell configurations apart exactly as long as no word is the name of a section. -/
theorem digestInput_separates_iff (words : String → Prop) :
    Separates words ↔ ∀ name ∈ sectionNames, ¬ words name := by
  refine ⟨fun h name hname hword => ?_,separates_of_sectioned⟩
  obtain ⟨c,c',hc,hc',hdigest,hne⟩ := exists_collision hname hword
  exact hne (h c c' hc hc' hdigest)

/-- Words that differ only in the list that they are in. -/
def withWords (keywords routingPrefixes : List String) : Config where
  version := supportedVersion
  naming := { Naming.default with keywords, routingPrefixes }
  preservedNames := defaultPreservedNames
  rootSegment := defaultRootSegment

/-- The name of the routing prefixes as a keyword, and as a routing prefix. -/
theorem movedKeyword_same_digestInput :
    (withWords ["routing_prefixes"] []).validate "a.toml" =
        .ok (withWords ["routing_prefixes"] []) ∧
      (withWords [] ["routing_prefixes"]).validate "b.toml" =
        .ok (withWords [] ["routing_prefixes"]) ∧
      withWords ["routing_prefixes"] [] ≠ withWords [] ["routing_prefixes"] ∧
      (withWords ["routing_prefixes"] []).digestInput =
        (withWords [] ["routing_prefixes"]).digestInput :=
  ⟨rfl,rfl,by decide,rfl⟩

end ClientGen.Config
