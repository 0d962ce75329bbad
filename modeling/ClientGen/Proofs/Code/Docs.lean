import ClientGen.Code.Render
import ClientGen.Code.Words
import ClientGen.Proofs.Text.DocLines
import ClientGen.Sdk.TypeUse

/-! # Docs of generated code

The lines of docs anywhere in a module. A line without breaks is rendered as one line of comment.
Free text is cut into such lines.
-/
namespace ClientGen.Code

/-! ## Lines -/

theorem isDocLine_iff {line : String} :
    isDocLine line = true ↔ '\n' ∉ line.toList ∧ '\r' ∉ line.toList := by
  simp [isDocLine]

theorem isDocLine_append {a b : String} :
    isDocLine (a ++ b) = true ↔ isDocLine a = true ∧ isDocLine b = true := by
  simp only [isDocLine_iff, String.toList_append, List.mem_append, not_or]
  exact and_and_and_comm

theorem isDocLine_quoted {before text after : String} (hb : isDocLine before = true)
    (ha : isDocLine after = true) :
    isDocLine (before ++ text ++ after) = true ↔ isDocLine text = true := by
  simp only [isDocLine_append, hb, ha, true_and, and_true]

theorem isDocLine_of_subset {a b : String} (h : a.toList ⊆ b.toList) (hb : isDocLine b = true) :
    isDocLine a = true := by
  obtain ⟨hn,hr⟩ := isDocLine_iff.mp hb
  exact isDocLine_iff.mpr ⟨fun hc => hn (h hc),fun hc => hr (h hc)⟩

theorem isDocLine_intercalate {sep : String} (hs : isDocLine sep = true) {parts : List String}
    (h : ∀ part ∈ parts, isDocLine part = true) : isDocLine (sep.intercalate parts) = true := by
  induction parts with
  | nil =>
    rw [String.intercalate_nil]
    decide
  | cons part rest ih =>
    have hpart := h part List.mem_cons_self
    have hrest := ih fun other hother => h other (List.mem_cons_of_mem _ hother)
    cases rest with
    | nil => rwa [String.intercalate_singleton]
    | cons next rest =>
      rw [String.intercalate_cons_cons, isDocLine_append, isDocLine_append]
      exact ⟨⟨hpart,hs⟩,hrest⟩

/-- One line and the line feed that ends it. -/
def OneLine (text : String) : Prop :=
  ∃ body, isDocLine body = true ∧ text = body ++ "\n"

theorem oneLine_append {body : String} : OneLine (body ++ "\n") ↔ isDocLine body = true := by
  constructor
  · rintro ⟨other,hother,he⟩
    rw [(String.append_left_inj "\n").mp he]
    exact hother
  · intro h
    exact ⟨body,h,rfl⟩

theorem oneLine_renderDoc {marker line : String} (hm : isDocLine marker = true) :
    OneLine (renderDoc marker line) ↔ isDocLine line = true := by
  have hblank : isDocLine " " = true := by decide
  unfold renderDoc
  split
  · rename_i hempty
    rw [String.isEmpty_iff] at hempty
    rw [oneLine_append, hempty]
    exact iff_of_true hm (by decide)
  · rw [oneLine_append, isDocLine_append, isDocLine_append]
    exact ⟨And.right,fun h => ⟨⟨hm,hblank⟩,h⟩⟩

/-! ## Docs of a module -/

def StructBody.docs : StructBody → List String
  | .fields fs => fs.flatMap (·.docs)
  | .newtype _ => []
  | .unit => []

def Member.docs : Member → List String
  | .const c => c.docs
  | .function f => f.docs

def Item.docs : Item → List String
  | .use _ _ => []
  | .mod _ _ => []
  | .struct s => s.docs ++ s.body.docs
  | .enum e => e.docs ++ e.variants.flatMap (·.docs)
  | .alias a => a.docs
  | .impl i => i.members.flatMap Member.docs
  | .function f => f.docs

/-- The docs of the module and of everything in it. -/
def Module.allDocs (m : Module) : List String :=
  m.docs ++ m.items.flatMap Item.docs

/-- No line has a break. -/
def Unbroken (docs : List String) : Prop :=
  ∀ line ∈ docs, isDocLine line = true

/-- The docs are lines without breaks, and each of them is one line of comment. -/
structure Module.CommentsHold (m : Module) : Prop where
  unbroken : Unbroken m.allDocs
  oneLine : ∀ line ∈ m.allDocs, ∀ marker ∈ ["//!","///"], OneLine (renderDoc marker line)

theorem Module.commentsHold_iff_unbroken {m : Module} : m.CommentsHold ↔ Unbroken m.allDocs := by
  refine ⟨CommentsHold.unbroken,fun h => ⟨h,fun line hline marker hmarker => ?_⟩⟩
  have hm : isDocLine marker = true := by
    rcases List.mem_cons.mp hmarker with rfl | hmarker
    · decide
    · rw [List.mem_singleton.mp hmarker]
      decide
  exact (oneLine_renderDoc hm).mpr (h line hline)

section
variable {α : Type} {line : String} {docs more : List String}

@[simp] theorem unbroken_nil : Unbroken [] := by
  intro line hline
  cases hline

@[simp] theorem unbroken_cons :
    Unbroken (line :: docs) ↔ isDocLine line = true ∧ Unbroken docs := by
  simp [Unbroken]

/-- One line that quotes a text between fixed marks. -/
theorem unbroken_quoted {before text after : String} (hb : isDocLine before = true)
    (ha : isDocLine after = true) :
    Unbroken [before ++ text ++ after] ↔ isDocLine text = true := by
  rw [unbroken_cons, isDocLine_quoted hb ha]
  exact and_iff_left unbroken_nil

@[simp] theorem unbroken_append : Unbroken (docs ++ more) ↔ Unbroken docs ∧ Unbroken more := by
  simp [Unbroken, or_imp, forall_and]

@[simp] theorem unbroken_flatMap {xs : List α} {f : α → List String} :
    Unbroken (xs.flatMap f) ↔ ∀ x ∈ xs, Unbroken (f x) := by
  simp only [Unbroken, List.mem_flatMap]
  constructor
  · intro h x hx line hline
    exact h line ⟨x,hx,hline⟩
  · rintro h line ⟨x,hx,hline⟩
    exact h x hx line hline

end
end ClientGen.Code

namespace ClientGen

/-! ## Docs from free text -/

namespace Text

/-- Whatever the text, its lines have no breaks. -/
theorem unbroken_docLines (text : String) : Code.Unbroken (docLines text) := by
  intro line hline
  -- either break is a control other than a tab
  refine Code.isDocLine_iff.mpr ⟨fun hc => ?_,fun hc => ?_⟩
  · exact absurd (eq_tab_of_isControl hline hc rfl) (by decide)
  · exact absurd (eq_tab_of_isControl hline hc rfl) (by decide)

end Text

namespace Sdk

@[simp] theorem unbroken_docsOf (description : Option String) :
    Code.Unbroken (docsOf description) := by
  cases description with
  | none => exact Code.unbroken_nil
  | some text => exact Text.unbroken_docLines text

@[simp] theorem unbroken_summaryDocs (summary description : Option String) :
    Code.Unbroken (summaryDocs summary description) := by
  simp only [summaryDocs]
  split
  · exact unbroken_docsOf summary
  · split
    · exact unbroken_docsOf description
    · rw [Code.unbroken_append, Code.unbroken_cons]
      exact ⟨unbroken_docsOf summary,by decide,unbroken_docsOf description⟩

end Sdk
end ClientGen
