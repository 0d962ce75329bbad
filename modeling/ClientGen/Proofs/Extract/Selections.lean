import ClientGen.Proofs.Classify.Schemas
import ClientGen.Proofs.Extract.Walk
import Mathlib.Data.List.Forall2

/-! # Bodies and responses by what is declared

A body or a response has a type only where a schema refers to a model. The body is that of the first
media type to do so. The response is settled by the first media type of the first code of success,
and nothing after it is looked at.
-/
namespace ClientGen

/-- The media types of a request, none where it takes no body. -/
def Endpoint.bodyContent (e : Endpoint) : Content :=
  (e.requestBody.map (·.content)).getD []

namespace Extract
variable {keep : List String}

/-! ## Media types that refer to models -/

/-- The schema refers to a model, or is an array of such references. A node with a reference is no
more than the reference. -/
inductive RefersTo (keep : List String) (schema : Schema) : TypeRef → Prop
  | itself {target n : String} (href : schema.ref = some target)
      (hname : Classify.refName keep target = .ok n) : RefersTo keep schema (.named n)
  | items {item : Schema} {target n : String} (href : schema.ref = none)
      (harray : schema.primaryType? = some "array") (hitem : schema.items = some item)
      (htarget : item.ref = some target) (hname : Classify.refName keep target = .ok n) :
      RefersTo keep schema (.array (.named n))

/-- The schema of the media type refers to a model. -/
def MediaRefersTo (keep : List String) (media : String × Option Schema) (t : TypeRef) : Prop :=
  ∃ schema, media.2 = some schema ∧ RefersTo keep schema t

theorem refersTo_iff (s : Source) {schema : Schema} {t : TypeRef} :
    RefersTo s.preservedNames schema t ↔ referredType? s schema = some (.ok t) := by
  constructor
  · rintro (⟨href,hname⟩ | ⟨href,harray,hitem,htarget,hname⟩)
    · simp only [referredType?, href, hname, Except.map]
    · simp only [referredType?, href, Schema.itemsRef?, if_pos harray, hitem, Option.bind_some,
        htarget, Option.map_some, hname, Except.map]
  · intro h
    unfold referredType? at h
    split at h
    · rename_i href
      obtain ⟨n,hname,rfl⟩ := Classify.exists_ok_of_map (Option.some.inj h)
      exact .itself href hname
    · rename_i href
      obtain ⟨target,hitems,h⟩ := Option.map_eq_some_iff.mp h
      obtain ⟨n,hname,rfl⟩ := Classify.exists_ok_of_map h
      unfold Schema.itemsRef? at hitems
      split at hitems
      · rename_i harray
        obtain ⟨item,hitem,htarget⟩ := Option.bind_eq_some_iff.mp hitems
        exact .items href harray hitem htarget hname
      · cases hitems

/-- The model or array of models that a media type refers to, if it has a name. -/
def mediaType? (s : Source) (media : String × Option Schema) : Option TypeRef :=
  (media.2.bind (referredType? s)).bind Except.toOption

theorem mediaType?_eq_some (s : Source) {media : String × Option Schema} {t : TypeRef} :
    mediaType? s media = some t ↔ MediaRefersTo s.preservedNames media t := by
  unfold mediaType? MediaRefersTo
  constructor
  · intro h
    obtain ⟨found,hfound,ht⟩ := Option.bind_eq_some_iff.mp h
    obtain ⟨schema,hschema,hfound⟩ := Option.bind_eq_some_iff.mp hfound
    cases found with
    | error cause => cases ht
    | ok t' =>
      cases ht
      exact ⟨schema,hschema,(refersTo_iff s).mpr hfound⟩
  · rintro ⟨schema,hschema,h⟩
    rw [hschema, Option.bind_some, (refersTo_iff s).mp h]
    rfl

theorem mediaType?_eq_none (s : Source) {media : String × Option Schema} :
    mediaType? s media = none ↔ ∀ t, ¬ MediaRefersTo s.preservedNames media t := by
  rw [Option.eq_none_iff_forall_ne_some]
  exact forall_congr' fun t => not_congr (mediaType?_eq_some s)

theorem RefersTo.ne_any {schema : Schema} {t : TypeRef} (h : RefersTo keep schema t) :
    t ≠ .any := by
  cases h <;> exact TypeRef.noConfusion

/-! ## Media types in document order -/

theorem forall₂_of_mapM {α β : Type} {f : α → Option β} {xs : List α} {ys : List β}
    (h : xs.mapM f = some ys) : List.Forall₂ (fun x y => f x = some y) xs ys := by
  induction xs generalizing ys with
  | nil =>
    cases h
    exact .nil
  | cons x rest ih =>
    rw [List.mapM_cons] at h
    obtain ⟨y,hy,h⟩ := Option.bind_eq_some_iff.mp h
    obtain ⟨later,hlater,h⟩ := Option.bind_eq_some_iff.mp h
    cases h
    exact .cons hy (ih hlater)

/-- Media types are read in the order of the document's members. -/
theorem forall₂_of_read {ms : List (Key × Tree)} {content : Content}
    (h : Content.read (.object ms) = some content) :
    List.Forall₂ (fun m media => m.1.text? = some media.1 ∧ readMediaType m.2 = some media.2)
      ms content := by
  refine (forall₂_of_mapM h).imp fun m media hm => ?_
  obtain ⟨name,hname,hm⟩ := Option.bind_eq_some_iff.mp hm
  obtain ⟨schema,hschema,hm⟩ := Option.bind_eq_some_iff.mp hm
  cases hm
  exact ⟨hname,hschema⟩

/-! ## Bodies -/

theorem value_bodyType (s : Source) (id : String) (content : Content) :
    (bodyType s id content).value = content.findSome? (mediaType? s) := by
  induction content with
  | nil => rfl
  | cons media rest ih =>
    unfold bodyType
    rw [List.findSome?_cons]
    cases h : media.2.bind (referredType? s) with
    | none => simp only [mediaType?, h, Option.bind_none, ih]
    | some found =>
      cases found with
      | ok t => simp only [mediaType?, h, Option.bind_some, Except.toOption, Logged.value_pure]
      | error cause =>
        simp only [mediaType?, h, Option.bind_some, Except.toOption, Logged.value_bind, ih]

/-! ## Responses -/

/-- The first declared code among those of success, with its response. -/
def FirstSuccess (e : Endpoint) (code : String) (declared : OrRef Response) : Prop :=
  ∃ before after, ["200","201","202","204"] = before ++ code :: after ∧
    (∀ c ∈ before, e.responses.get? c = none) ∧ e.responses.get? code = some declared

/-- What the first declared code of success stands for. -/
def Succeeds (d : Document) (e : Endpoint) (r : Response) : Prop :=
  ∃ code declared, FirstSuccess e code declared ∧ d.response? declared = some r

/-- The endpoints declare the same up to the first code of success. -/
def SameSuccess (e e' : Endpoint) : Prop :=
  ∀ before code after, ["200","201","202","204"] = before ++ code :: after →
    (∀ c ∈ before, e.responses.get? c = none) → e'.responses.get? code = e.responses.get? code

theorem declaredSuccess?_eq_some {e : Endpoint} {code : String} {declared : OrRef Response} :
    declaredSuccess? e = some (code,declared) ↔ FirstSuccess e code declared := by
  rw [declaredSuccess?, List.findSome?_eq_some_iff]
  constructor
  · rintro ⟨before,c,after,hcodes,hc,hbefore⟩
    obtain ⟨_,hdeclared,hpair⟩ := Option.map_eq_some_iff.mp hc
    cases hpair
    exact ⟨before,after,hcodes,fun c hc => Option.map_eq_none_iff.mp (hbefore c hc),hdeclared⟩
  · rintro ⟨before,after,hcodes,hbefore,hdeclared⟩
    refine ⟨before,code,after,hcodes,?_,fun c hc => ?_⟩
    · rw [hdeclared, Option.map_some]
    · rw [hbefore c hc, Option.map_none]

/-- The response to a success, if the document has it. -/
def success? (d : Document) (e : Endpoint) : Option Response :=
  (declaredSuccess? e).bind fun found => d.response? found.2

theorem success?_eq_some {d : Document} {e : Endpoint} {r : Response} :
    success? d e = some r ↔ Succeeds d e r := by
  rw [success?, Option.bind_eq_some_iff]
  constructor
  · rintro ⟨⟨code,declared⟩,hfirst,hr⟩
    exact ⟨code,declared,declaredSuccess?_eq_some.mp hfirst,hr⟩
  · rintro ⟨code,declared,hfirst,hr⟩
    exact ⟨(code,declared),declaredSuccess?_eq_some.mpr hfirst,hr⟩

/-- A response by its first media type, of which a response may have none. -/
def responseOf (s : Source) : Option (String × Option Schema) → ResponseType
  | some (media,some schema) => .body ((mediaType? s (media,some schema)).getD .any)
  | _ => .empty

theorem value_responseType (s : Source) (id : String) (e : Endpoint) :
    (responseType s id e).value =
      ((success? s.document e).map fun r => responseOf s (r.content.bind List.head?)).getD
        (.body .any) := by
  unfold responseType success?
  cases declaredSuccess? e with
  | none => rfl
  | some found =>
    obtain ⟨code,declared⟩ := found
    simp only [Option.bind_some]
    cases s.document.response? declared with
    | none => rfl
    | some r =>
      obtain ⟨_,content⟩ := r
      rcases content with _ | _ | ⟨⟨media,_ | schema⟩,rest⟩
      · rfl
      · rfl
      · rfl
      · have hmedia : mediaType? s (media,some schema) =
            (referredType? s schema).bind Except.toOption := rfl
        simp only [Option.map_some, Option.getD_some, Option.bind_some, List.head?_cons,
          responseOf, hmedia]
        rcases referredType? s schema with _ | ⟨cause | t⟩
        · rfl
        · rfl
        · rfl

theorem declaredSuccess?_congr {e e' : Endpoint} (h : SameSuccess e e') :
    declaredSuccess? e' = declaredSuccess? e := by
  have hafter (before codes : List String) (hcodes : successCodes = before ++ codes)
      (hbefore : ∀ c ∈ before, e.responses.get? c = none) :
      codes.findSome? (fun code => (e'.responses.get? code).map (code,·)) =
        codes.findSome? fun code => (e.responses.get? code).map (code,·) := by
    induction codes generalizing before with
    | nil => rfl
    | cons code rest ih =>
      rw [List.findSome?_cons, List.findSome?_cons, h before code rest hcodes hbefore]
      cases hcode : e.responses.get? code with
      | some declared => rfl
      | none =>
        apply ih (before ++ [code])
        · rw [hcodes, List.append_assoc, List.singleton_append]
        · intro c hc
          rcases List.mem_append.mp hc with hc | hc
          · exact hbefore c hc
          · exact List.mem_singleton.mp hc ▸ hcode
  exact hafter [] successCodes rfl fun _ hc => absurd hc List.not_mem_nil

/-! ## What an operation takes and returns -/

/-- Body and response are what the endpoint's media types say. -/
structure Selects (keep : List String) (d : Document) (e : Endpoint) (op : Operation) :
    Prop where
  body : ∀ t, op.body = some t ↔ ∃ before media after, e.bodyContent = before ++ media :: after ∧
    MediaRefersTo keep media t ∧ ∀ m ∈ before, ∀ t', ¬ MediaRefersTo keep m t'
  noBody : op.body = none ↔ ∀ media ∈ e.bodyContent, ∀ t, ¬ MediaRefersTo keep media t
  empty : op.response = .empty ↔ ∃ r, Succeeds d e r ∧ (r.content = none ∨ r.content = some [] ∨
    ∃ media rest, r.content = some ((media,none) :: rest))
  referred : ∀ t, t ≠ .any → (op.response = .body t ↔
    ∃ r media rest, Succeeds d e r ∧ r.content = some (media :: rest) ∧ MediaRefersTo keep media t)
  /-- Where nothing is declared, or found, or where a schema refers to nothing with a name. -/
  any : op.response = .body .any ↔ (∀ r, ¬ Succeeds d e r) ∨
    ∃ r media schema rest, Succeeds d e r ∧ r.content = some ((media,some schema) :: rest) ∧
      ∀ t, ¬ RefersTo keep schema t

/-- The first success of both endpoints has the same first media type, or none has one. -/
def SameFirstMedia (d d' : Document) (e e' : Endpoint) : Prop :=
  ∀ media, (∃ r, Succeeds d e r ∧ r.content.bind List.head? = media) ↔
    ∃ r, Succeeds d' e' r ∧ r.content.bind List.head? = media

theorem body_eq_some_iff (s : Source) {content : Content} {t : TypeRef} :
    content.findSome? (mediaType? s) = some t ↔
      ∃ before media after, content = before ++ media :: after ∧
        MediaRefersTo s.preservedNames media t ∧
        ∀ m ∈ before, ∀ t', ¬ MediaRefersTo s.preservedNames m t' := by
  simp only [List.findSome?_eq_some_iff, mediaType?_eq_some, mediaType?_eq_none]

theorem body_eq_none_iff (s : Source) {content : Content} :
    content.findSome? (mediaType? s) = none ↔
      ∀ media ∈ content, ∀ t, ¬ MediaRefersTo s.preservedNames media t := by
  simp only [List.findSome?_eq_none_iff, mediaType?_eq_none]

section
variable (s : Source) {r : Response} {media : String × Option Schema} {t : TypeRef}

theorem mediaType?_getD (ht : t ≠ .any) : (mediaType? s media).getD .any = t ↔
    MediaRefersTo s.preservedNames media t := by
  rw [← mediaType?_eq_some]
  cases mediaType? s media with
  | none =>
    rw [Option.getD_none]
    exact ⟨fun h => absurd h.symm ht,nofun⟩
  | some t' => rw [Option.getD_some, Option.some.injEq]

theorem mediaType?_getD_any : (mediaType? s media).getD .any = .any ↔
    ∀ t, ¬ MediaRefersTo s.preservedNames media t := by
  rw [← mediaType?_eq_none]
  cases h : mediaType? s media with
  | none => simp
  | some t' =>
    obtain ⟨schema,_,hrefers⟩ := (mediaType?_eq_some s).mp h
    simp [hrefers.ne_any]

theorem responseOf_eq_empty : responseOf s (r.content.bind List.head?) = .empty ↔
    r.content = none ∨ r.content = some [] ∨
      ∃ media rest, r.content = some ((media,none) :: rest) := by
  rcases r with ⟨_,_ | _ | ⟨⟨media,_ | schema⟩,rest⟩⟩
  · simp [responseOf]
  · simp [responseOf]
  · simp [responseOf]
  · simp [responseOf]

theorem responseOf_eq_body (ht : t ≠ .any) :
    responseOf s (r.content.bind List.head?) = .body t ↔
      ∃ media rest, r.content = some (media :: rest) ∧
        MediaRefersTo s.preservedNames media t := by
  rcases r with ⟨_,_ | _ | ⟨⟨media,_ | schema⟩,rest⟩⟩
  · simp [responseOf]
  · simp [responseOf]
  · simp [responseOf, MediaRefersTo]
  · simp [responseOf, mediaType?_getD s ht]

theorem responseOf_eq_any : responseOf s (r.content.bind List.head?) = .body .any ↔
    ∃ media schema rest, r.content = some ((media,some schema) :: rest) ∧
      ∀ t, ¬ RefersTo s.preservedNames schema t := by
  rcases r with ⟨_,_ | _ | ⟨⟨media,_ | schema⟩,rest⟩⟩
  · simp [responseOf]
  · simp [responseOf]
  · simp [responseOf]
  · simp [responseOf, mediaType?_getD_any, MediaRefersTo]

end

/-- Body and response worked out from the endpoint. -/
structure SelectedBy (s : Source) (e : Endpoint) (op : Operation) : Prop where
  body : op.body = e.bodyContent.findSome? (mediaType? s)
  response : op.response = ((success? s.document e).map fun r =>
    responseOf s (r.content.bind List.head?)).getD (.body .any)

theorem selectedBy_operation (s : Source) (names : GivenNames) (e : Entry) (owner : Owner) :
    SelectedBy s e.endpoint (operation s names e owner).value where
  body := by
    rw [value_operation, Endpoint.bodyContent]
    cases e.endpoint.requestBody with
    | none => rfl
    | some body => exact value_bodyType s _ body.content
  response := by
    rw [value_operation]
    exact value_responseType s _ e.endpoint

theorem exists_endpoint_of_mem_api {s : Source} {op : Operation}
    (hop : op ∈ (api s).value.operations) :
    ∃ e, s.document.Declares op.route e ∧ SelectedBy s e op := by
  obtain ⟨e,he,names,owner,rfl⟩ := exists_entry_of_mem_walk s [] _ hop
  have hselected := selectedBy_operation s names e owner
  refine ⟨e.endpoint,exists_entry_iff.mpr ⟨e,he,?_,rfl⟩,hselected⟩
  rw [value_operation]
  rfl

namespace SelectedBy
variable {s : Source} {e : Endpoint} {op : Operation}

theorem selects (h : SelectedBy s e op) : Selects s.preservedNames s.document e op := by
  have hnone : success? s.document e = none ↔ ∀ r, ¬ Succeeds s.document e r := by
    simp only [Option.eq_none_iff_forall_ne_some, ne_eq, success?_eq_some]
  constructor
  · intro t
    rw [h.body]
    exact body_eq_some_iff s
  · rw [h.body]
    exact body_eq_none_iff s
  · rw [h.response]
    simp only [← success?_eq_some]
    cases success? s.document e with
    | none => simp
    | some r => simp [responseOf_eq_empty]
  · intro t ht
    rw [h.response]
    simp only [← success?_eq_some]
    cases success? s.document e with
    | none => simpa using ht.symm
    | some r => simp [responseOf_eq_body s ht]
  · rw [h.response, ← hnone]
    simp only [← success?_eq_some]
    cases success? s.document e with
    | none => simp
    | some r => simp [responseOf_eq_any]

/-- The response is settled by what the success starts with. -/
theorem response_eq_map (h : SelectedBy s e op) : op.response =
    (((success? s.document e).map fun r => r.content.bind List.head?).map (responseOf s)).getD
      (.body .any) := by
  rw [h.response, Option.map_map]
  rfl

end SelectedBy

section
variable {c : Config} {d d' : Document} {e e' : Endpoint} {op op' : Operation}

theorem body_eq (h : SelectedBy (.of c d) e op) (h' : SelectedBy (.of c d') e' op')
    {before after after' : Content} {media : String × Option Schema} {t : TypeRef}
    (hmedia : MediaRefersTo c.preservedNames media t)
    (he : e.bodyContent = before ++ media :: after)
    (he' : e'.bodyContent = before ++ media :: after') : op'.body = op.body := by
  have hsame : mediaType? (.of c d') = mediaType? (.of c d) := rfl
  have hfound := (mediaType?_eq_some (.of c d)).mpr hmedia
  rw [h.body, h'.body, he, he', hsame, List.findSome?_append, List.findSome?_append,
    List.findSome?_cons, List.findSome?_cons, hfound]

theorem response_eq (h : SelectedBy (.of c d) e op) (h' : SelectedBy (.of c d') e' op')
    (hmedia : SameFirstMedia d d' e e') : op'.response = op.response := by
  have hsame : responseOf (.of c d') = responseOf (.of c d) := rfl
  have hfirst : (success? d' e').map (fun r => r.content.bind List.head?) =
      (success? d e).map fun r => r.content.bind List.head? := by
    apply Option.ext
    intro media
    simp only [Option.map_eq_some_iff, success?_eq_some]
    exact (hmedia media).symm
  rw [h.response_eq_map, h'.response_eq_map, hsame]
  exact congrArg (fun m => (m.map (responseOf (.of c d))).getD (.body .any)) hfirst

theorem sameFirstMedia_of_success (h : SameSuccess e e')
    (hfound : ∀ code declared, FirstSuccess e code declared →
      d'.response? declared = d.response? declared) : SameFirstMedia d d' e e' := by
  have hsuccess : success? d' e' = success? d e := by
    rw [success?, success?, declaredSuccess?_congr h]
    apply Option.bind_congr
    intro found hfirst
    exact hfound found.1 found.2 (declaredSuccess?_eq_some.mp hfirst)
  intro media
  simp only [← success?_eq_some, hsuccess]

end

/-- Each operation has the body and the response that its own endpoint selects, in the order of the
document. Media types after the one that gives the body, or after the first of the response, play no
part, and neither do responses of codes after the first one of success. -/
theorem body_and_response_selected (c : Config) (d : Document) :
    (∀ ms content, Content.read (.object ms) = some content →
      List.Forall₂ (fun m media => m.1.text? = some media.1 ∧ readMediaType m.2 = some media.2)
        ms content) ∧
    (∀ op ∈ (api (.of c d)).value.operations, ∃ e, d.Declares op.route e ∧
      Selects c.preservedNames d e op) ∧
    ∀ d' : Document, ∀ op ∈ (api (.of c d)).value.operations,
      ∀ op' ∈ (api (.of c d')).value.operations, ∀ e e',
        d.Declares op.route e → d'.Declares op'.route e' →
          (∀ before media after after' t, MediaRefersTo c.preservedNames media t →
            e.bodyContent = before ++ media :: after →
            e'.bodyContent = before ++ media :: after' → op'.body = op.body) ∧
          (SameFirstMedia d d' e e' → op'.response = op.response) ∧
          (SameSuccess e e' → (∀ code declared, FirstSuccess e code declared →
            d'.response? declared = d.response? declared) → op'.response = op.response) := by
  refine ⟨fun _ _ => forall₂_of_read,?_,?_⟩
  · intro op hop
    obtain ⟨e,he,hselected⟩ := exists_endpoint_of_mem_api hop
    exact ⟨e,he,hselected.selects⟩
  · intro d' op hop op' hop' e e' he he'
    obtain ⟨found,hfound,hselected⟩ := exists_endpoint_of_mem_api hop
    obtain ⟨found',hfound',hselected'⟩ := exists_endpoint_of_mem_api hop'
    obtain rfl := hfound.unique he
    obtain rfl := hfound'.unique he'
    refine ⟨fun before media after after' t hmedia => ?_,?_,?_⟩
    · exact body_eq hselected hselected' hmedia
    · exact response_eq hselected hselected'
    · intro hsame hdeclared
      exact response_eq hselected hselected' (sameFirstMedia_of_success hsame hdeclared)

/-- A path whose request and whose responses can be more than the first that count. -/
def zones (media : Content) (others : List (String × OrRef Response)) : Document where
  paths := .ofList [("/zones",⟨none,none,some (update media others),none,none,[]⟩)]
  components := some ⟨.empty,.empty,.ofList [("Made",⟨none,some [("application/json",
    refers "#/components/schemas/Zone"),("text/plain",none)]⟩)]⟩
where
  refers (target : String) : Option Schema := Schema.ofJson? (.object [("$ref",.text target)])
  list : Option Schema := Schema.ofJson? (.object [("type",.text "array"),
    ("items",.object [("$ref",.text "#/components/schemas/Zone")])])
  update (media : Content) (others : List (String × OrRef Response)) : Endpoint :=
    ⟨some "updateZones",none,none,["zone"],none,[],some ⟨true,[("text/plain",none),
      ("text/csv",refers "#/"),("application/json",list)] ++ media⟩,
      .ofList (("201",.ref "#/components/responses/Made") :: others)⟩

/-- Another media type and other codes, which leave the types as they are. -/
def laterZones : Document :=
  zones [("text/html",zones.refers "#/Page")] [("204",.here ⟨none,none⟩),("404",.here ⟨none,none⟩)]

theorem body_and_response_selected_zones :
    ∃ op ∈ (api (.of ⟨1,.default,[],"v4"⟩ (zones [] []))).value.operations,
      (∃ e, (zones [] []).Declares op.route e ∧ Selects [] (zones [] []) e op) ∧
      op.body = some (.array (.named "Zone")) ∧ op.response = .body (.named "Zone") ∧
      ∃ op' ∈ (api (.of ⟨1,.default,[],"v4"⟩ laterZones)).value.operations,
        op'.body = op.body ∧ op'.response = op.response := by
  have hbare : (api (.of ⟨1,.default,[],"v4"⟩ (zones [] []))).value.operations.map
      (fun op => (op.route,op.body,op.response)) =
        [(("/zones",.put),some (.array (.named "Zone")),.body (.named "Zone"))] := by
    decide +kernel
  have hmore : (api (.of ⟨1,.default,[],"v4"⟩ laterZones)).value.operations.map (·.route) =
      [("/zones",.put)] := by
    decide +kernel
  obtain ⟨op,hop,hmade⟩ := List.mem_map.mp (hbare.symm ▸ List.mem_singleton_self _)
  obtain ⟨op',hop',hroute'⟩ := List.mem_map.mp (hmore.symm ▸ List.mem_singleton_self _)
  obtain ⟨hroute,htypes⟩ := Prod.mk.inj hmade
  obtain ⟨hbody,hresponse⟩ := Prod.mk.inj htypes
  obtain ⟨_,hselected,halone⟩ := body_and_response_selected ⟨1,.default,[],"v4"⟩ (zones [] [])
  refine ⟨op,hop,hselected op hop,hbody,hresponse,op',hop',?_⟩
  have he : (zones [] []).Declares op.route (zones.update [] []) := hroute ▸ ⟨_,rfl,rfl⟩
  have he' : laterZones.Declares op'.route (zones.update [("text/html",zones.refers "#/Page")]
      [("204",.here ⟨none,none⟩),("404",.here ⟨none,none⟩)]) := hroute' ▸ ⟨_,rfl,rfl⟩
  obtain ⟨hsameBody,_,hsameResponse⟩ := halone laterZones op hop op' hop' _ _ he he'
  have hlist : MediaRefersTo [] ("application/json",zones.list) (.array (.named "Zone")) :=
    (mediaType?_eq_some (.of ⟨1,.default,[],"v4"⟩ laterZones)).mp (by decide +kernel)
  constructor
  · exact hsameBody [("text/plain",none),("text/csv",zones.refers "#/")] _ [] _ _ hlist rfl rfl
  · apply hsameResponse
    · intro before code after hcodes hbefore
      rcases before with _ | ⟨_,_ | ⟨second,_⟩⟩
      · cases hcodes
        rfl
      · cases hcodes
        rfl
      · -- the second code is declared, so none is looked for after it
        obtain ⟨_,hcodes⟩ := List.cons.inj hcodes
        obtain ⟨rfl,_⟩ := List.cons.inj hcodes
        cases hbefore "201" (List.mem_cons_of_mem _ List.mem_cons_self)
    · intro code declared _
      cases declared with
      | ref target => rfl
      | here r => rfl

end Extract
end ClientGen
