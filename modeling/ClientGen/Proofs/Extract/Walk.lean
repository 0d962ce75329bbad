import ClientGen.Proofs.Data.Dict
import ClientGen.Proofs.Extract.PathParams
import ClientGen.Proofs.Text.Utf8

/-! # The walk over endpoints

The entries of a document are its declared endpoints in order, each once. The walk makes of each one
an operation or an exclusion, as the naming tables say, and keeps their order in both lists.
-/
namespace ClientGen

/-- Where an endpoint stands in a document. -/
abbrev Route := String × Method

/-- The place of a method among those of one path. -/
def Method.rank : Method → Nat
  | delete => 0
  | get => 1
  | patch => 2
  | post => 3
  | put => 4

/-- By the bytes of the path, then by method. -/
def Route.Before (a b : Route) : Prop :=
  Config.utf8 a.1 < Config.utf8 b.1 ∨ a.1 = b.1 ∧ a.2.rank < b.2.rank

theorem Route.Before.ne {a b : Route} (h : a.Before b) : a ≠ b := by
  rintro rfl
  rcases h with h | ⟨_,h⟩
  · exact List.lt_irrefl _ h
  · exact Nat.lt_irrefl _ h

/-- The operation's id at this place, by the naming tables and what the endpoint declares. -/
def Endpoint.id (n : Naming) (r : Route) (e : Endpoint) : String :=
  n.operationId r.2 r.1 e.operationId

/-- The operation's owner at this place, if any rule gives it one. -/
def Endpoint.owner? (n : Naming) (r : Route) (e : Endpoint) : Option Owner :=
  n.owner? (e.id n r) r.1 ⟨e.service,e.tags⟩

def Operation.route (op : Operation) : Route := (op.path,op.method)

def Exclusion.route (x : Exclusion) : Route := (x.path,x.method)

/-- The exclusion that a warning reports. -/
def Warning.exclusion? : Warning → Option Exclusion
  | .unownedOperation id method path => some ⟨method,path,id⟩
  | _ => none

namespace Document

/-- The document has this endpoint at this place. -/
def Declares (d : Document) (r : Route) (e : Endpoint) : Prop :=
  ∃ item, d.paths.get? r.1 = some item ∧ Extract.endpoint? item r.2 = some e

theorem Declares.unique {d : Document} {r : Route} {e e' : Endpoint} (h : d.Declares r e)
    (h' : d.Declares r e') : e = e' := by
  obtain ⟨item,hitem,he⟩ := h
  obtain ⟨item',hitem',he'⟩ := h'
  cases hitem.symm.trans hitem'
  exact Option.some.inj (he.symm.trans he')

end Document

namespace Extract

def Entry.route (e : Entry) : Route := (e.path,e.method)

/-! ## Entries of a document -/

theorem mem_all_methods (m : Method) : m ∈ Method.all := by
  cases m <;> decide

theorem rank_increasing : Method.all.Pairwise fun a b => a.rank < b.rank := by decide

theorem mem_entries {d : Document} {e : Entry} : e ∈ entries d ↔
    d.paths.get? e.path = some e.item ∧ endpoint? e.item e.method = some e.endpoint := by
  simp only [entries, List.mem_flatMap, List.mem_filterMap, Option.map_eq_some_iff]
  constructor
  · rintro ⟨⟨path,item⟩,hitem,m,_,endpoint,hendpoint,rfl⟩
    exact ⟨Dict.get?_eq_some_iff.mpr hitem,hendpoint⟩
  · rintro ⟨hitem,hendpoint⟩
    exact ⟨(e.path,e.item),Dict.get?_eq_some_iff.mp hitem,e.method,mem_all_methods _,e.endpoint,
      hendpoint,rfl⟩

theorem exists_entry_iff {d : Document} {r : Route} {e : Endpoint} :
    d.Declares r e ↔ ∃ entry ∈ entries d, entry.route = r ∧ entry.endpoint = e := by
  constructor
  · rintro ⟨item,hitem,he⟩
    exact ⟨⟨r.1,item,r.2,e⟩,mem_entries.mpr ⟨hitem,he⟩,rfl,rfl⟩
  · rintro ⟨entry,hentry,rfl,rfl⟩
    exact ⟨entry.item,mem_entries.mp hentry⟩

/-- Entries come by path, as the table of paths does, and the methods of a path in their order. -/
theorem entries_increasing (d : Document) :
    (entries d).Pairwise fun a b => a.route.Before b.route := by
  refine List.pairwise_flatMap.mpr ⟨fun p _ => ?_,d.paths.increasing.imp ?_⟩
  · refine List.pairwise_filterMap.mpr (rank_increasing.imp ?_)
    intro m n hmn a ha b hb
    obtain ⟨_,_,rfl⟩ := Option.map_eq_some_iff.mp ha
    obtain ⟨_,_,rfl⟩ := Option.map_eq_some_iff.mp hb
    exact .inr ⟨rfl,hmn⟩
  · intro p q hpq a ha b hb
    obtain ⟨_,_,ha⟩ := List.mem_filterMap.mp ha
    obtain ⟨_,_,hb⟩ := List.mem_filterMap.mp hb
    obtain ⟨_,_,rfl⟩ := Option.map_eq_some_iff.mp ha
    obtain ⟨_,_,rfl⟩ := Option.map_eq_some_iff.mp hb
    exact .inl (Config.lt_iff_utf8_lt.mp hpq)

/-! ## What the walk makes of entries -/

/-- What the naming tables settle of an operation. -/
abbrev Credit := Route × String × Owner

def credit (op : Operation) : Credit := (op.route,op.id,op.owner)

def Entry.credit? (n : Naming) (e : Entry) : Option Credit :=
  (e.owner? n).map fun owner => (e.route,e.id n,owner)

def Entry.exclusion? (n : Naming) (e : Entry) : Option Exclusion :=
  if (e.owner? n).isSome then none else some ⟨e.method,e.path,e.id n⟩

section
variable {n : Naming} {e : Entry}

theorem credit?_eq_some {r : Route} {id : String} {owner : Owner} :
    e.credit? n = some (r,id,owner) ↔
      e.owner? n = some owner ∧ e.route = r ∧ e.id n = id := by
  simp only [Entry.credit?, Option.map_eq_some_iff, Prod.mk.injEq]
  constructor
  · rintro ⟨_,howner,hr,hid,rfl⟩
    exact ⟨howner,hr,hid⟩
  · rintro ⟨howner,hr,hid⟩
    exact ⟨owner,howner,hr,hid,rfl⟩

theorem exclusion?_eq_some {x : Exclusion} :
    e.exclusion? n = some x ↔ e.owner? n = none ∧ ⟨e.method,e.path,e.id n⟩ = x := by
  cases h : e.owner? n <;> simp [Entry.exclusion?, h]

end

theorem map_credit_walk (s : Source) (given : GivenNames) (es : List Entry) :
    (walk s given es).value.operations.map credit = es.filterMap (·.credit? s.naming) := by
  induction es generalizing given with
  | nil => rfl
  | cons e rest ih =>
    unfold walk
    cases howner : e.owner? s.naming with
    | none =>
      rw [List.filterMap_cons_none (by rw [Entry.credit?, howner]; rfl)]
      exact ih given
    | some owner =>
      have hcredit : e.credit? s.naming = some (credit (operation s given e owner).value) := by
        rw [Entry.credit?, howner, value_operation]
        rfl
      rw [List.filterMap_cons_some hcredit]
      exact congrArg (_ :: ·) (ih _)

theorem excluded_walk (s : Source) (given : GivenNames) (es : List Entry) :
    (walk s given es).value.excluded = es.filterMap (·.exclusion? s.naming) := by
  induction es generalizing given with
  | nil => rfl
  | cons e rest ih =>
    unfold walk
    cases howner : e.owner? s.naming with
    | none =>
      rw [List.filterMap_cons_some (by rw [Entry.exclusion?, howner]; rfl)]
      exact congrArg (_ :: ·) (ih given)
    | some owner =>
      rw [List.filterMap_cons_none (by rw [Entry.exclusion?, howner]; rfl)]
      exact ih _

/-! ## Warnings of exclusions -/

/-- A warning about something else than an exclusion. -/
abbrev Quiet (w : Warning) : Prop := w.exclusion? = none

theorem quiet_parameterType (s : Source) (context : String) (p : Parameter) :
    (parameterType s context p).Only Quiet := by
  unfold parameterType
  split
  · exact .pure _
  · split
    · exact .pure _
    · exact .bind (.warn rfl) fun _ => .pure _

theorem quiet_parameters (s : Source) (item : PathItem) (e : Endpoint) :
    (parameters s item e).Only Quiet := by
  refine .foldlM _ fun merged p => ?_
  split
  · exact .pure _
  · exact .bind (.warn rfl) fun _ => .pure _

theorem quiet_pathParams (s : Source) (id path : String) (ps : List Parameter) :
    (pathParams s id path ps).Only Quiet := by
  refine .bind (.forIn _ fun name _ => ?_) fun _ => .mapM fun name => ?_
  · split
    · exact .bind (.warn rfl) fun _ => .pure _
    · exact .pure _
  · split
    · exact (quiet_parameterType s id _).bind fun _ => .pure _
    · exact .pure _

theorem quiet_queryParams (s : Source) (ps : List Parameter) :
    (queryParams s ps).Only Quiet :=
  .bind (.mapM fun p => (quiet_parameterType s p.name p).bind fun _ => .pure _) fun _ => .pure _

theorem quiet_bodyType (s : Source) (id : String) (content : Content) :
    (bodyType s id content).Only Quiet := by
  induction content with
  | nil => exact .pure _
  | cons media rest ih =>
    unfold bodyType
    split
    · exact ih
    · exact .pure _
    · exact .bind (.warn rfl) fun _ => ih

theorem quiet_responseType (s : Source) (id : String) (e : Endpoint) :
    (responseType s id e).Only Quiet := by
  unfold responseType
  split
  · exact .pure _
  · split
    · exact .bind (.warn rfl) fun _ => .pure _
    · split
      · split
        · exact .pure _
        · exact .pure _
        · exact .bind (.warn rfl) fun _ => .pure _
      · exact .pure _

theorem quiet_functionName (given : GivenNames) (id package : String) :
    (functionName given id package).Only Quiet := by
  intro w hw
  simp only [functionName] at hw
  split at hw
  · cases hw
  · rw [List.mem_singleton.mp hw]
    rfl

theorem quiet_operation (s : Source) (given : GivenNames) (e : Entry) (owner : Owner) :
    (operation s given e owner).Only Quiet := by
  refine .bind (quiet_functionName given _ _) fun function => ?_
  refine .bind (quiet_parameters s _ _) fun ps => ?_
  refine .bind (quiet_pathParams s _ _ _) fun path => ?_
  refine .bind (quiet_queryParams s _) fun query => ?_
  cases e.endpoint.requestBody with
  | none => exact .bind (.pure _) fun _ => .bind (quiet_responseType s _ _) fun _ => .pure _
  | some body =>
    exact .bind (quiet_bodyType s _ _) fun _ => .bind (quiet_responseType s _ _) fun _ => .pure _

/-- Each exclusion is reported once, in the order of the exclusions. -/
theorem exclusions_warned (s : Source) (given : GivenNames) (es : List Entry) :
    (walk s given es).warnings.filterMap Warning.exclusion? =
      (walk s given es).value.excluded := by
  induction es generalizing given with
  | nil => rfl
  | cons e rest ih =>
    unfold walk
    cases howner : e.owner? s.naming with
    | none =>
      have hreported : (Warning.unownedOperation (e.id s.naming) e.method e.path).exclusion? =
          some ⟨e.method,e.path,e.id s.naming⟩ := rfl
      simp only [Logged.warnings_bind, Logged.warnings_warn, Logged.warnings_pure,
        List.append_nil, List.singleton_append, Logged.value_bind, Logged.value_pure]
      rw [List.filterMap_cons_some hreported, ih]
    | some owner =>
      have hquiet : (operation s given e owner).warnings.filterMap Warning.exclusion? = [] :=
        List.filterMap_eq_nil_iff.mpr (quiet_operation s given e owner)
      simp only [Logged.warnings_bind, Logged.warnings_pure, List.append_nil,
        Logged.value_bind, Logged.value_pure, List.filterMap_append, hquiet, List.nil_append, ih]

end Extract
end ClientGen
