import ClientGen.Proofs.Ident.Escape
import ClientGen.Sdk.Signature

/-! # Names in a signature

The arguments of an operation's function have names of their own, apart from each other and from
those that the function uses for something else.
-/
namespace ClientGen.Sdk.Signature
variable {op : Operation}

theorem nodup_argumentNames (op : Operation) : (argumentNames op).Nodup :=
  Ident.reserve_fresh.nodup_reserveAll _ _

theorem dot_not_mem_argumentNames {name : String} (h : name ∈ argumentNames op) :
    '.' ∉ name.toList := by
  refine Ident.dot_not_mem_reserveAll (fun base hbase => ?_) h
  obtain ⟨param,_,rfl⟩ := List.mem_map.mp hbase
  exact Ident.dot_not_mem_bindingName param.name

theorem not_mem_argumentNames {name : String} (h : name ∈ reservedArguments) :
    name ∉ argumentNames op := fun hn =>
  Ident.reserve_fresh.not_mem_of_mem_reserveAll hn h

theorem length_argumentNames (op : Operation) :
    (argumentNames op).length = op.pathParams.length := by
  simp [argumentNames]

theorem bodyName_not_mem (op : Operation) : bodyName op ∉ argumentNames op ++ reservedArguments :=
  Ident.reserve_fresh.fresh _ _

theorem nodup_names (op : Operation) :
    (argumentNames op ++ [bodyName op,"options"]).Nodup := by
  obtain ⟨hbody,hreserved⟩ := not_or.mp (mt List.mem_append.mpr (bodyName_not_mem op))
  have hoptions : "options" ∈ reservedArguments := by decide
  have hpair : [bodyName op,"options"].Nodup :=
    List.nodup_cons.mpr ⟨fun h => hreserved (List.mem_singleton.mp h ▸ hoptions),
      List.nodup_singleton _⟩
  refine (nodup_argumentNames op).append hpair fun name hname hpair => ?_
  rcases List.mem_cons.mp hpair with rfl | h
  · exact hbody hname
  · exact not_mem_argumentNames hoptions (List.mem_singleton.mp h ▸ hname)

theorem escaped_of_mem_argumentNames {name : String} (h : name ∈ argumentNames op) :
    Ident.Escaped name := by
  refine Ident.escaped_of_mem_reserveAll ?_ h
  intro base hbase
  obtain ⟨param,_,rfl⟩ := List.mem_map.mp hbase
  exact Ident.escaped_bindingName param.name

theorem escaped_reserved {name : String} (h : name ∈ reservedArguments) : Ident.Escaped name := by
  have hall : ∀ n ∈ reservedArguments,
      n.toList.all Char.isAlphanum = true ∧ Ident.isKeyword n = false := by decide
  obtain ⟨hletters,hk⟩ := hall name h
  exact .plain (fun c hc => .inl (List.all_eq_true.mp hletters c hc)) hk

theorem escaped_bodyName (op : Operation) : Ident.Escaped (bodyName op) := by
  have hbase : Ident.Escaped "request_body" := .plain (by simp [Wordlike]) (by decide)
  exact hbase.reserve _

/-- All names in a signature are escaped. -/
theorem escaped_of_mem_names {name : String}
    (h : name ∈ argumentNames op ++ [bodyName op,"options"]) : Ident.Escaped name := by
  rcases List.mem_append.mp h with h | h
  · exact escaped_of_mem_argumentNames h
  · rcases List.mem_cons.mp h with rfl | h
    · exact escaped_bodyName op
    · rw [List.mem_singleton.mp h]
      exact escaped_reserved (by decide)

/-- What the document names differs from the names in use, also without the mark of the raw
form. -/
theorem unraw_not_mem_reserved {name : String} (h : name ∈ argumentNames op ++ [bodyName op]) :
    Ident.unraw name ∉ reservedArguments := by
  intro hmem
  have hreserved : ∀ n ∈ reservedArguments, Ident.unraw n = n := by decide
  have hescaped : Ident.Escaped name := by
    rcases List.mem_append.mp h with h | h
    · exact escaped_of_mem_argumentNames h
    · exact List.mem_singleton.mp h ▸ escaped_bodyName op
  have hsame : name = Ident.unraw name :=
    hescaped.eq_of_unraw_eq (escaped_reserved hmem) (hreserved _ hmem).symm
  rw [← hsame] at hmem
  rcases List.mem_append.mp h with h | h
  · exact not_mem_argumentNames hmem h
  · rw [List.mem_singleton.mp h] at hmem
    exact bodyName_not_mem op (List.mem_append_right _ hmem)

/-! ## Path arguments -/

theorem map_name_path (scope : ModelScope) (paths : ModulePaths) (op : Operation) :
    (ofOperation scope paths op).path.map (·.name) = argumentNames op := by
  rw [ofOperation, ← List.map_uncurry_zip_eq_zipWith, List.map_map]
  exact List.map_fst_zip (length_argumentNames op).le

theorem map_scalar_path (scope : ModelScope) (paths : ModulePaths) (op : Operation) :
    (ofOperation scope paths op).path.map (·.scalar) =
      op.pathParams.map fun param => param.type.scalar := by
  rw [ofOperation, ← List.map_uncurry_zip_eq_zipWith, List.map_map]
  have hsnd := List.map_snd_zip (length_argumentNames op).ge
  conv_rhs => rw [← hsnd, List.map_map]
  rfl

theorem getElem?_path (scope : ModelScope) (paths : ModulePaths) {k : Nat} {param : PathParam}
    (hk : op.pathParams[k]? = some param) :
    ∃ name, (argumentNames op)[k]? = some name ∧
      (ofOperation scope paths op).path[k]? = some ⟨name,param.type.scalar⟩ := by
  have hlt := (List.getElem?_eq_some_iff.mp hk).1
  rw [← length_argumentNames] at hlt
  refine ⟨_,List.getElem?_eq_getElem hlt,?_⟩
  rw [ofOperation, List.getElem?_zipWith, List.getElem?_eq_getElem hlt, hk]

end ClientGen.Sdk.Signature
