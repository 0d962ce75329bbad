import ClientGen.Proofs.Extract.Functions
import ClientGen.Proofs.Extract.Walk

/-! # Packages apart

The part of a document that a package owns gives the operations of this package as the whole
document does. Two walks are compared, one over all entries and one over those of the package: they
meet the same entries of the package with the same names used in it, whatever has come between.
-/
namespace ClientGen

/-- The table with each value replaced. -/
def Dict.mapValues {α β : Type} (f : String → α → β) (d : Dict α) : Dict β :=
  ⟨d.entries.map fun e => (e.1,f e.1 e.2),List.pairwise_map.mpr d.increasing⟩

def Endpoint.isOwnedBy (n : Naming) (package : String) (r : Route) (e : Endpoint) : Bool :=
  (e.owner? n r).any (·.package == package)

/-- The item at a path without the endpoints that the package does not own. -/
def PathItem.ownedBy (n : Naming) (package path : String) (item : PathItem) : PathItem :=
  { item with
    get := item.get.filter (·.isOwnedBy n package (path,.get))
    post := item.post.filter (·.isOwnedBy n package (path,.post))
    put := item.put.filter (·.isOwnedBy n package (path,.put))
    patch := item.patch.filter (·.isOwnedBy n package (path,.patch))
    delete := item.delete.filter (·.isOwnedBy n package (path,.delete)) }

/-- The document without the endpoints that the package does not own. Path items, their parameters
and all components stay. -/
def Document.ownedBy (n : Naming) (package : String) (d : Document) : Document :=
  { d with paths := d.paths.mapValues (PathItem.ownedBy n package) }

namespace Extract
variable {n : Naming} {package : String}

theorem endpoint?_ownedBy (path : String) (item : PathItem) (m : Method) :
    endpoint? (item.ownedBy n package path) m =
      (endpoint? item m).filter (·.isOwnedBy n package (path,m)) := by
  cases m <;> rfl

/-! ## Entries of a package -/

/-- The entry in the document of the package, if it is owned by it. -/
def Entry.ownedBy? (n : Naming) (package : String) (e : Entry) : Option Entry :=
  if e.endpoint.isOwnedBy n package e.route then
    some { e with item := e.item.ownedBy n package e.path }
  else none

theorem entries_ownedBy (d : Document) :
    entries (d.ownedBy n package) = (entries d).filterMap (·.ownedBy? n package) := by
  unfold entries Document.ownedBy Dict.mapValues
  rw [List.flatMap_map, List.filterMap_flatMap]
  congr 1
  funext ⟨path,item⟩
  show Method.all.filterMap (fun m => (endpoint? (item.ownedBy n package path) m).map _) = _
  rw [List.filterMap_filterMap]
  congr 1
  funext m
  rw [endpoint?_ownedBy]
  cases endpoint? item m with
  | none => rfl
  | some e =>
    by_cases h : e.isOwnedBy n package (path,m) = true
    · simp [Entry.ownedBy?, Entry.route, Option.filter, h]
    · simp [Entry.ownedBy?, Entry.route, Option.filter, h]

/-- An endpoint stays where it is declared, or is gone. -/
theorem declares_ownedBy {d : Document} {r : Route} {e : Endpoint} :
    (d.ownedBy n package).Declares r e ↔
      d.Declares r e ∧ ∃ owner, e.owner? n r = some owner ∧ owner.package = package := by
  have howned : e.isOwnedBy n package r = true ↔
      ∃ owner, e.owner? n r = some owner ∧ owner.package = package := by
    simp [Endpoint.isOwnedBy, Option.any_eq_true]
  rw [exists_entry_iff, exists_entry_iff, entries_ownedBy, ← howned]
  constructor
  · rintro ⟨narrowed,hmem,rfl,rfl⟩
    obtain ⟨entry,hentry,hsome⟩ := List.mem_filterMap.mp hmem
    obtain ⟨hkept,hnarrowed⟩ := Option.ite_none_right_eq_some.mp hsome
    cases hnarrowed
    exact ⟨⟨entry,hentry,rfl,rfl⟩,hkept⟩
  · rintro ⟨⟨entry,hentry,rfl,rfl⟩,hkept⟩
    refine ⟨_,List.mem_filterMap.mpr ⟨entry,hentry,if_pos hkept⟩,rfl,rfl⟩

/-! ## Operations under other paths -/

/-- The source with other paths in its document. -/
def Source.withPaths (s : Source) (paths : Dict PathItem) : Source :=
  { s with document := { s.document with paths } }

section
variable (s : Source) (paths : Dict PathItem)

/-- References are resolved among the components only. -/
theorem parameters_withPaths (path : String) (item : PathItem) (e : Endpoint) :
    parameters (s.withPaths paths) (item.ownedBy n package path) e = parameters s item e := by
  have hresolved (p : OrRef Parameter) :
      (s.withPaths paths).document.parameter? p = s.document.parameter? p := by
    cases p <;> rfl
  unfold parameters
  simp only [hresolved]
  rfl

theorem responseType_withPaths (id : String) (e : Endpoint) :
    responseType (s.withPaths paths) id e = responseType s id e := by
  have hresolved (r : OrRef Response) :
      (s.withPaths paths).document.response? r = s.document.response? r := by
    cases r <;> rfl
  unfold responseType
  simp only [hresolved]
  rfl

theorem bodyType_withPaths (id : String) (content : Content) :
    bodyType (s.withPaths paths) id content = bodyType s id content := by
  induction content with
  | nil => rfl
  | cons media rest ih =>
    unfold bodyType
    rw [ih]
    rfl

/-- Of the names given before, an operation depends on those in its package. -/
theorem operation_withPaths {given given' : GivenNames} {owner : Owner}
    (hused : usedIn given' owner.package = usedIn given owner.package) (e : Entry) :
    (operation (s.withPaths paths) given' { e with item := e.item.ownedBy n package e.path }
      owner).value = (operation s given e owner).value := by
  have hname : functionName given' (e.id s.naming) owner.package =
      functionName given (e.id s.naming) owner.package := by
    unfold functionName
    rw [hused]
  rw [value_operation, value_operation]
  simp only [parameters_withPaths, responseType_withPaths, bodyType_withPaths]
  rw [← hname]
  rfl

end

/-! ## Two walks -/

theorem usedIn_cons (package' name : String) (given : GivenNames) :
    usedIn ((package',name) :: given) package =
      if package' = package then name :: usedIn given package else usedIn given package := by
  unfold usedIn
  by_cases h : package' = package
  · rw [if_pos h, List.filter_cons_of_pos (by simpa using h)]
    rfl
  · rw [if_neg h, List.filter_cons_of_neg (by simpa using h)]

/-- As long as both walks have used the same names in the package, they give it the same
operations. -/
theorem walk_ownedBy (s : Source) (paths : Dict PathItem) (es : List Entry)
    {given given' : GivenNames} (hused : usedIn given' package = usedIn given package) :
    (walk (s.withPaths paths) given'
      (es.filterMap (·.ownedBy? s.naming package))).value.operations =
      (walk s given es).value.operationsOf package := by
  unfold Api.operationsOf
  induction es generalizing given given' with
  | nil => rfl
  | cons e rest ih =>
    cases howner : e.owner? s.naming with
    | none =>
      have hgone : e.ownedBy? s.naming package = none := by
        have hnone : e.endpoint.owner? s.naming e.route = none := howner
        simp [Entry.ownedBy?, Endpoint.isOwnedBy, hnone]
      rw [List.filterMap_cons_none hgone, ih hused]
      simp only [walk, howner]
      rfl
    | some owner =>
      have hsome : e.endpoint.owner? s.naming e.route = some owner := howner
      obtain ⟨_,hpackage⟩ := place_operation s given e owner
      have hfull : (walk s given (e :: rest)).value.operations =
          (operation s given e owner).value ::
            (walk s ((owner.package,(operation s given e owner).value.function) :: given)
              rest).value.operations := by
        simp only [walk, howner]
        rfl
      by_cases hp : owner.package = package
      · -- both walks make the same operation, and use its name in the package
        let narrowed : Entry := { e with item := e.item.ownedBy s.naming package e.path }
        have hkept : e.ownedBy? s.naming package = some narrowed := by
          simp [Entry.ownedBy?, Endpoint.isOwnedBy, hsome, hp, narrowed]
        have howner' : narrowed.owner? (s.withPaths paths).naming = some owner := howner
        have hsame : (operation (s.withPaths paths) given' narrowed owner).value =
            (operation s given e owner).value :=
          operation_withPaths s paths (by rw [hp, hused]) e
        have hnext : usedIn
            ((owner.package,(operation s given e owner).value.function) :: given') package =
            usedIn
              ((owner.package,(operation s given e owner).value.function) :: given) package := by
          rw [usedIn_cons, usedIn_cons, hused]
        have hnarrow : (walk (s.withPaths paths) given'
            (narrowed :: rest.filterMap (·.ownedBy? s.naming package))).value.operations =
            (operation s given e owner).value :: (walk (s.withPaths paths)
              ((owner.package,(operation s given e owner).value.function) :: given')
              (rest.filterMap (·.ownedBy? s.naming package))).value.operations := by
          simp only [walk, howner', Logged.value_bind, Logged.value_pure, hsame]
        rw [List.filterMap_cons_some hkept, hnarrow, hfull, ih hnext,
          List.filter_cons_of_pos (by rw [hpackage, hp]; exact beq_self_eq_true _)]
      · -- a name of another package is not used in this one
        have hgone : e.ownedBy? s.naming package = none := by
          simp [Entry.ownedBy?, Endpoint.isOwnedBy, hsome, hp]
        have hnext : usedIn given' package = usedIn
            ((owner.package,(operation s given e owner).value.function) :: given) package := by
          rw [usedIn_cons, if_neg hp, hused]
        rw [List.filterMap_cons_none hgone, hfull, ih hnext,
          List.filter_cons_of_neg (by rw [hpackage]; simpa using hp)]

/-- Packages do not influence each other. What a document has beyond the endpoints of a package
changes nothing in the operations of the package. -/
theorem packages_apart (c : Config) (d : Document) (package : String) :
    (∀ r e, (d.ownedBy c.naming package).Declares r e ↔
      d.Declares r e ∧ ∃ owner, e.owner? c.naming r = some owner ∧ owner.package = package) ∧
    (api (.of c (d.ownedBy c.naming package))).value.operations =
      (api (.of c d)).value.operationsOf package ∧
    ∀ d' : Document, d'.ownedBy c.naming package = d.ownedBy c.naming package →
      (api (.of c d')).value.operationsOf package =
        (api (.of c d)).value.operationsOf package := by
  have hnarrow (d : Document) : (api (.of c (d.ownedBy c.naming package))).value.operations =
      (api (.of c d)).value.operationsOf package := by
    have hwalk : (walk ((Source.of c d).withPaths (d.ownedBy c.naming package).paths) []
        ((entries d).filterMap (·.ownedBy? c.naming package))).value.operations =
        (walk (.of c d) [] (entries d)).value.operationsOf package := walk_ownedBy _ _ _ rfl
    rw [← entries_ownedBy] at hwalk
    exact hwalk
  refine ⟨fun r e => declares_ownedBy,hnarrow d,?_⟩
  intro d' hsame
  rw [← hnarrow d', ← hnarrow d, hsame]

/-- Operations with one id in two packages, and one that nothing owns. -/
def market : Document where
  paths := .ofList [
    ("/fish",⟨some (listing ["fish"]),none,none,none,none,[]⟩),
    ("/fruit",⟨some (listing ["fruit"]),some (listing ["fish"]),none,none,none,[]⟩),
    ("/more",⟨some (listing ["fruit"]),some (listing []),none,none,none,[]⟩)]
  components := none
where
  listing (tags : List String) : Endpoint := ⟨some "list",none,none,tags,none,[],none,.empty⟩

theorem packages_apart_market :
    (api (.of ⟨1,.default,[],"v4"⟩ market)).value.operations.map (·.place) =
      [("fish","list"),("fruit","list"),("fish","list_2"),("fruit","list_2")] ∧
    ((api (.of ⟨1,.default,[],"v4"⟩ (market.ownedBy .default "fruit"))).value.operations.map
      (·.place)) = [("fruit","list"),("fruit","list_2")] := by
  obtain ⟨_,hnarrow,_⟩ := packages_apart ⟨1,.default,[],"v4"⟩ market "fruit"
  rw [hnarrow]
  decide +kernel

end Extract
end ClientGen
