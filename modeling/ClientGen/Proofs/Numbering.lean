import ClientGen.Proofs.Navigation.Wiring
import ClientGen.Proofs.Passes
import ClientGen.Proofs.RouteTree.Growth

/-! # Numbers of path parameters

The extractor numbers the parameters of a path by one scan of the whole path. The route tree, for
their types, and navigation, for the segments that their values come from, number them by scans of
the segments in turn. Both come to the same numbers exactly when no placeholder runs across a slash.
-/
namespace ClientGen

namespace Template

/-- The placeholders of the segments in turn. -/
def bySegment (path : String) : List String :=
  (segments path).flatMap placeholders

/-- The number of the `i`-th placeholder of the `j`-th segment among those of all segments. -/
def number (path : String) (j i : Nat) : Nat :=
  (((segments path).take j).flatMap placeholders).length + i

/-- What an item of a list gives stands behind what the items before it give. -/
theorem getElem?_flatMap_take {α β : Type} (f : α → List β) {xs : List α} {j i : Nat} {x : α}
    {y : β} (hx : xs[j]? = some x) (hy : (f x)[i]? = some y) :
    (xs.flatMap f)[((xs.take j).flatMap f).length + i]? = some y := by
  induction xs generalizing j with
  | nil => simp at hx
  | cons first rest ih =>
    rw [List.flatMap_cons]
    cases j with
    | zero =>
      obtain rfl : first = x := by simpa using hx
      have hi := (List.getElem?_eq_some_iff.mp hy).1
      rw [List.take_zero, List.flatMap_nil, List.length_nil, Nat.zero_add,
        List.getElem?_append_left hi, hy]
    | succ j =>
      rw [List.take_succ_cons, List.flatMap_cons, List.length_append, Nat.add_assoc,
        List.getElem?_append_right (Nat.le_add_right _ _), Nat.add_sub_cancel_left]
      exact ih (by simpa using hx)

theorem getElem?_bySegment {path segment name : String} {j i : Nat}
    (hs : (segments path)[j]? = some segment) (hi : (placeholders segment)[i]? = some name) :
    (bySegment path)[number path j i]? = some name :=
  getElem?_flatMap_take placeholders hs hi

/-! ## The two scans -/

theorem slash_not_mem_of_mem_pieces {cs piece : List Char} (h : piece ∈ pieces cs) :
    '/' ∉ piece := by
  induction cs using slash_induction with
  | piece cs hs =>
    rw [pieces_of_not_mem hs] at h
    split at h
    · cases h
    · rwa [List.mem_singleton.mp h]
  | slash xs ys hx ih =>
    rw [pieces_append, List.mem_append, pieces_of_not_mem hx] at h
    rcases h with h | h
    · split at h
      · cases h
      · rwa [List.mem_singleton.mp h]
    · exact ih h

/-- The name of a placeholder is a part of the text. -/
theorem subset_of_mem_names {cs n : List Char} (h : n ∈ names cs) : n ⊆ cs := by
  obtain ⟨k,hk⟩ := List.mem_iff_getElem?.mp h
  obtain ⟨rest,he⟩ := eq_opening_append cs hk
  intro c hc
  rw [he]
  exact List.mem_append_left _ (List.mem_append_right _ hc)

theorem slash_not_mem_of_mem_bySegment {path name : String} (h : name ∈ bySegment path) :
    '/' ∉ name.toList := by
  obtain ⟨segment,hsegment,hname⟩ := List.mem_flatMap.mp h
  rw [segments_eq] at hsegment
  obtain ⟨piece,hpiece,rfl⟩ := List.mem_map.mp hsegment
  rw [placeholders_ofList] at hname
  obtain ⟨n,hn,rfl⟩ := List.mem_map.mp hname
  rw [String.toList_ofList]
  exact fun hslash => slash_not_mem_of_mem_pieces hpiece (subset_of_mem_names hn hslash)

/-- Scans of the segments in turn find what one scan of the path finds, if no placeholder runs
across a slash, and otherwise not. -/
theorem bySegment_eq_iff (path : String) :
    bySegment path = placeholders path ↔ ∀ name ∈ placeholders path, '/' ∉ name.toList := by
  constructor
  · intro h name hname
    exact slash_not_mem_of_mem_bySegment (h ▸ hname)
  · intro h
    have hscan := flatMap_names_pieces (slashFree_of_placeholders h)
    rw [bySegment, segments_eq, List.flatMap_map, placeholders_eq, ← hscan, List.map_flatMap]
    exact List.flatMap_congr fun piece _ => placeholders_ofList piece

end Template

/-! ## Who numbers by segments -/

open Template Sdk.Navigation

/-- The route tree takes the types of parameters, and navigation the nodes that own arguments, by
the numbers that scans of the segments give. -/
structure NumbersBySegment (op : Operation) : Prop where
  numbers (j i : Nat) (segment name : String) (hs : (segments op.path)[j]? = some segment)
    (hi : (placeholders segment)[i]? = some name) :
    (bySegment op.path)[number op.path j i]? = some name
  types (j : Nat) (segment name : String) (hs : (segments op.path)[j]? = some segment)
    (hw : wholePlaceholder? segment = some name) :
    op.segments[j]? = some
      (.param name ((op.pathParams[number op.path j 0]?.map (·.type)).getD .text))
  owners (t : RouteTree) (id node j i : Nat) (segment name : String)
    (hs : (segments op.path)[j]? = some segment) (hi : (placeholders segment)[i]? = some name)
    (hn : (t.lineage id)[j]? = some node) :
    (Sdk.Navigation.owners t op id)[number op.path j i]? = some (if i = 0 then some node else none)

theorem getElem?_owners {op : Operation} {t : RouteTree} {id node j i : Nat}
    {segment name : String} (hs : (segments op.path)[j]? = some segment)
    (hi : (placeholders segment)[i]? = some name) (hn : (t.lineage id)[j]? = some node) :
    (owners t op id)[number op.path j i]? = some (if i = 0 then some node else none) := by
  let owned (x : String × Nat) : List (Option Nat) :=
    (placeholders x.1).zipIdx.map fun y => if y.2 = 0 then some x.2 else none
  have howners : owners t op id = ((segments op.path).zip (t.lineage id)).flatMap owned := rfl
  have hz : ((segments op.path).zip (t.lineage id))[j]? = some (segment,node) :=
    List.getElem?_zip_eq_some.mpr ⟨hs,hn⟩
  have howned : (owned (segment,node))[i]? = some (if i = 0 then some node else none) := by
    simp only [owned, List.getElem?_map, List.getElem?_zipIdx, hi, Option.map_some, Nat.zero_add]
  have hlength : ((((segments op.path).zip (t.lineage id)).take j).flatMap owned).length =
      (((segments op.path).take j).flatMap placeholders).length := by
    have hj := (List.getElem?_eq_some_iff.mp hn).1
    have hfirst : (((segments op.path).zip (t.lineage id)).take j).map Prod.fst =
        (segments op.path).take j := by
      rw [List.zip_eq_zipWith, List.take_zipWith, ← List.zip_eq_zipWith, List.map_fst_zip]
      simp only [List.length_take]
      omega
    simp only [owned, ← hfirst, List.length_flatMap, List.map_map, List.length_map,
      List.length_zipIdx]
    rfl
  rw [howners, number, ← hlength]
  exact getElem?_flatMap_take owned hz howned

theorem numbersBySegment (op : Operation) : NumbersBySegment op where
  numbers _ _ _ _ hs hi := getElem?_bySegment hs hi
  types j segment name hs hw := by
    rw [op.getElem?_segments, hs, Option.map_some, hw]
    rfl
  owners _ _ _ _ _ _ _ hs hi hn := getElem?_owners hs hi hn

/-- The scan of a whole path and the scans of its segments agree exactly when no placeholder has a
slash in it. The extractor goes by the first, the route tree and navigation by the others. -/
theorem scans_agree_iff (path : String) :
    (bySegment path = placeholders path ↔ ∀ name ∈ placeholders path, '/' ∉ name.toList) ∧
    (∀ (s : Extract.Source) (id : String) (ps : List Parameter),
      (Extract.pathParams s id path ps).value.map (·.name) = placeholders path) ∧
    ∀ op : Operation, op.path = path → NumbersBySegment op :=
  ⟨bySegment_eq_iff path,fun s id ps => Extract.map_name_pathParams s id path ps,
    fun op _ => numbersBySegment op⟩

/-- A placeholder runs across a slash, before another one. -/
def straddled : Generator where
  document :=
    { paths := .ofList [("/{a/b}/{id}",⟨some ⟨some "getPart",none,none,["part"],none,
        [.here (numbered "a/b")],none,.empty⟩,none,none,none,none,[]⟩)]
      components := none }
  config := Generator.defaultConfig
  paths := .default

/-- The second placeholder is numbered as the first one. It gets the type of the first, and its value
is passed for the first. -/
theorem straddled_numbers_shift :
    placeholders "/{a/b}/{id}" = ["a/b","id"] ∧ bySegment "/{a/b}/{id}" = ["id"] ∧
    straddled.api.value.operations.map (fun op => (op.path,op.pathParams,op.segments)) =
      [("/{a/b}/{id}",[⟨"a/b",.int32,none⟩,⟨"id",.text,none⟩],
        [.literal "\x7ba",.literal "b\x7d",.param "id" .int32])] ∧
    straddled.api.value.operations.map (fun op =>
      (operationMethod (.of (.build [op]) "v4") ⟨[],none⟩ .default 3 op).passed.map
        Code.Expr.render) = [["self.client","self.id","id"]] := by
  exact ⟨by decide,by decide,by decide +kernel,by decide +kernel⟩

end ClientGen
