import ClientGen.Proofs.Document.MemberOrder
import ClientGen.Proofs.Passes

/-! # Generation from reordered documents

The order in which a JSON document lists the members of its objects leaves no trace in what is
generated, but for the order of media types.
-/
namespace ClientGen.Generator
open Document (ofText)
open Document.Zone (layout)
variable {s s' : String} {a b : Tree}

/-- Two texts whose values differ only in the order of members are both rejected, with one error, or
both read to documents that give the same models, the same operations and exclusions and the same
files of each pass. -/
theorem generation_of_reordered (config : Config) (paths : Sdk.ModulePaths) (origin : String)
    (ha : JsonText.read? s = some a) (hb : JsonText.read? s' = some b)
    (h : a.Reordered layout .document b) :
    (∃ e, ofText s (some .json) origin = .error e ∧ ofText s' (some .json) origin = .error e) ∨
      ∃ d d', ofText s (some .json) origin = .ok d ∧ ofText s' (some .json) origin = .ok d' ∧
        (Generator.mk d config paths).models = (Generator.mk d' config paths).models ∧
        (Generator.mk d config paths).api = (Generator.mk d' config paths).api ∧
        ∀ pass, (Generator.mk d config paths).files pass =
          (Generator.mk d' config paths).files pass := by
  -- All that is generated depends on what was read, where tables are kept by name.
  have hread : Document.read a = Document.read b := Document.agrees_document a b h
  have hload : ofText s (some .json) origin = ofText s' (some .json) origin := by
    simp only [ofText, Document.readAs, ha, hb, Option.bind_some, hread]
  rw [← hload]
  cases hd : ofText s (some .json) origin with
  | error e => exact .inl ⟨e,rfl,rfl⟩
  | ok d => exact .inr ⟨d,d,rfl,rfl,rfl,rfl,fun _ => rfl⟩

theorem read?_of_value {text : String} {cs : List Char} {n : Nat} {t : Tree}
    (ht : text = String.ofList cs) (hn : 2 * cs.length + 2 = n)
    (h : JsonText.value n cs = some (t,[])) :
    JsonText.read? text = some (t.limitDepth JsonText.maxDepth) := by
  simp only [JsonText.read?, ht, String.toList_ofList, hn, h]
  rfl

/-- A string with a format, and a schema that is none. -/
def formatThenNull : String :=
  "\x7b\"paths\":\x7b\x7d,\"components\":\x7b\"schemas\":\x7b\"Id\":\x7b" ++
    "\"type\":\"string\",\"format\":\"uuid\"\x7d,\"Bad\":null\x7d,\"parameters\":\x7b\x7d\x7d\x7d"

/-- The same, each object in the other order. -/
def nullThenFormat : String :=
  "\x7b\"components\":\x7b\"parameters\":\x7b\x7d,\"schemas\":\x7b\"Bad\":null,\"Id\":\x7b" ++
    "\"format\":\"uuid\",\"type\":\"string\"\x7d\x7d\x7d,\"paths\":\x7b\x7d\x7d"

theorem generation_of_reordered_schemas :
    ∃ d d', ofText formatThenNull (some .json) "api.json" = .ok d ∧
      ofText nullThenFormat (some .json) "api.json" = .ok d' ∧
      (Generator.mk d defaultConfig .default).models =
        (Generator.mk d' defaultConfig .default).models ∧
      (Generator.mk d defaultConfig .default).api = (Generator.mk d' defaultConfig .default).api ∧
      ∀ pass, (Generator.mk d defaultConfig .default).files pass =
        (Generator.mk d' defaultConfig .default).files pass := by
  have ha : JsonText.read? formatThenNull = some (.object [
      (.text "paths",.object []),
      (.text "components",.object [
        (.text "schemas",.object [
          (.text "Id",.object [(.text "type",.text "string"),(.text "format",.text "uuid")]),
          (.text "Bad",.null)]),
        (.text "parameters",.object [])])]) :=
    (read?_of_value (String.ofList_append ..).symm rfl rfl).trans rfl
  have hb : JsonText.read? nullThenFormat = some (.object [
      (.text "components",.object [
        (.text "parameters",.object []),
        (.text "schemas",.object [
          (.text "Bad",.null),
          (.text "Id",.object [(.text "format",.text "uuid"),(.text "type",.text "string")])])]),
      (.text "paths",.object [])]) :=
    (read?_of_value (String.ofList_append ..).symm rfl rfl).trans rfl
  have hok : (ofText formatThenNull (some .json) "api.json").isOk = true := by
    simp only [ofText, Document.readAs, ha, Option.bind_some]
    rfl
  have h := generation_of_reordered defaultConfig .default "api.json" ha hb
    (.swap (by decide) nofun .empty
      (.swap (by decide) nofun
        (.swap (by decide) nofun
          (.swap (by decide) nofun (.leaf rfl) (.leaf rfl))
          (.leaf rfl))
        .empty))
  rcases h with ⟨e,he,_⟩ | h
  · rw [he] at hok
    cases hok
  · exact h

end ClientGen.Generator
