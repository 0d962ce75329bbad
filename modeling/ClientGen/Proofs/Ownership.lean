import ClientGen.Ownership
import ClientGen.Proofs.Template.Segments

/-! # Who owns an operation

Each rule says on its own which service it names for an operation, and the first rule that names one
decides. So what only later rules read does not matter, and neither does the case of the letters of
a path that mentions a keyword.
-/
namespace ClientGen

/-- The place of a rule: a rule of less rank goes first. -/
def OwnershipRule.rank : OwnershipRule → Nat
  | operationTable => 0
  | pathKeyword => 1
  | idKeyword => 2
  | extension => 3
  | tag => 4
  | routing => 5

theorem OwnershipRule.rank_lt_routing {rule : OwnershipRule} (h : rule ≠ routing) :
    rule.rank < routing.rank := by
  cases rule with
  | routing => exact absurd rfl h
  | _ => decide

/-- What the rules read of an operation. -/
structure OwnerInput where
  id : String
  path : String
  hints : OwnerHints

namespace Text

/-- The same characters but for the case of ASCII letters. -/
def SameButCase (s t : String) : Prop :=
  s.toList.map Char.toLower = t.toList.map Char.toLower

/-- The word stands somewhere in the text, in whatever case. -/
def Mentions (text word : String) : Prop :=
  ∃ found, found.toList <:+: text.toList ∧ SameButCase found word

theorem occursIn_iff {needle text : List Char} : occursIn needle text = true ↔ needle <:+: text := by
  induction text with
  | nil => simp [occursIn]
  | cons c cs ih =>
    rw [occursIn, Bool.or_eq_true, ih, List.isPrefixOf_iff_prefix, List.infix_cons_iff]

theorem toList_lowerAscii (s : String) : (lowerAscii s).toList = s.toList.map Char.toLower := by
  rw [lowerAscii, String.toList_ofList]

theorem mentions_iff {text word : String} : Mentions text word ↔
    occursIn (lowerAscii word).toList (lowerAscii text).toList = true := by
  rw [occursIn_iff, toList_lowerAscii, toList_lowerAscii, List.infix_map_iff]
  constructor
  · rintro ⟨found,hfound,hcase⟩
    exact ⟨found.toList,hfound,hcase.symm⟩
  · rintro ⟨found,hfound,hcase⟩
    refine ⟨String.ofList found,?_,?_⟩
    · rwa [String.toList_ofList]
    · rw [SameButCase, String.toList_ofList, hcase]

instance (text word : String) : Decidable (Mentions text word) :=
  decidable_of_iff _ mentions_iff.symm

/-- The case of a text does not matter for what it mentions. -/
theorem SameButCase.mentions_iff {s t : String} (h : SameButCase s t) (word : String) :
    Mentions s word ↔ Mentions t word := by
  have hlower : lowerAscii s = lowerAscii t := by rw [lowerAscii, h, lowerAscii]
  rw [Text.mentions_iff, Text.mentions_iff, hlower]

end Text

namespace Naming
open Text (Mentions SameButCase)

/-! ## Rules one by one -/

/-- The first keyword, empty ones apart, that the text mentions. -/
def FirstMentioned (n : Naming) (text keyword : String) : Prop :=
  ∃ before after, n.keywords = before ++ keyword :: after ∧ keyword ≠ "" ∧ Mentions text keyword ∧
    ∀ earlier ∈ before, earlier ≠ "" → ¬ Mentions text earlier

/-- A segment without braces names what is left of it after the strip prefix, if it has one. -/
def NamesService (n : Naming) (segment service : String) : Prop :=
  '{' ∉ segment.toList ∧ service ≠ "" ∧
    (segment = n.routingStrip ++ service ∨
      ¬ n.routingStrip.toList <+: segment.toList ∧ service = segment)

/-- Segments next to each other, from left to right. -/
def neighbours (segments : List String) : List (String × String) :=
  segments.zip segments.tail

/-- The first segment right after a routing prefix that names a service. -/
def FirstRouted (n : Naming) (segments : List String) (service : String) : Prop :=
  ∃ before mark segment after,
    neighbours segments = before ++ (mark,segment) :: after ∧ mark ∈ n.routingPrefixes ∧
      n.NamesService segment service ∧
      ∀ earlier ∈ before, earlier.1 ∈ n.routingPrefixes →
        ∀ other, ¬ n.NamesService earlier.2 other

/-- The rule by itself names the service. -/
inductive Applies (n : Naming) (x : OwnerInput) : OwnershipRule → String → Prop
  | operationTable {service : String} (h : n.operationServices.get? x.id = some service) :
    Applies n x .operationTable service
  | pathKeyword {keyword : String} (h : n.FirstMentioned x.path keyword) :
    Applies n x .pathKeyword (Text.lowerAscii keyword)
  | idKeyword {keyword : String} (h : n.FirstMentioned x.id keyword) :
    Applies n x .idKeyword (Text.lowerAscii keyword)
  | extension {service : String} (h : x.hints.service = some service) (hne : service ≠ "") :
    Applies n x .extension service
  | tag {first : String} {later : List String} (h : x.hints.tags = first :: later)
    (hne : first ≠ "") : Applies n x .tag first
  | routing {service : String} (h : n.FirstRouted (Template.segments x.path) service) :
    Applies n x .routing service

variable {n : Naming} {text service : String}

/-! ### Keywords -/

theorem keywordIn?_eq (n : Naming) (text : String) : n.keywordIn? text =
    (n.keywords.find? fun k => k ≠ "" ∧ Mentions text k).map Text.lowerAscii := by
  rw [keywordIn?, loweredKeywords, List.find?_map, List.find?_filter]
  refine congrArg (Option.map Text.lowerAscii) (congrArg (List.find? · _) (funext fun k => ?_))
  simp [Text.mentions_iff]

theorem keywordIn?_eq_some : n.keywordIn? text = some service ↔
    ∃ keyword, n.FirstMentioned text keyword ∧ Text.lowerAscii keyword = service := by
  rw [keywordIn?_eq, Option.map_eq_some_iff]
  refine exists_congr fun keyword => and_congr_left fun _ => ?_
  have hunmentioned (before : List String) :
      (∀ earlier ∈ before, (! decide (earlier ≠ "" ∧ Mentions text earlier)) = true) ↔
        ∀ earlier ∈ before, earlier ≠ "" → ¬ Mentions text earlier := by
    refine forall₂_congr fun earlier _ => ?_
    rw [Bool.not_eq_true', decide_eq_false_iff_not, not_and]
  simp only [List.find?_eq_some_iff_append, decide_eq_true_eq, hunmentioned]
  constructor
  · rintro ⟨⟨hne,hmention⟩,before,after,hsplit,hbefore⟩
    exact ⟨before,after,hsplit,hne,hmention,hbefore⟩
  · rintro ⟨before,after,hsplit,hne,hmention,hbefore⟩
    exact ⟨⟨hne,hmention⟩,before,after,hsplit,hbefore⟩

/-- Two texts mention the same keywords. -/
def SameMentions (n : Naming) (text other : String) : Prop :=
  ∀ k ∈ n.keywords, k ≠ "" → (Mentions text k ↔ Mentions other k)

theorem FirstMentioned.congr {other keyword : String} (h : n.FirstMentioned text keyword)
    (hsame : n.SameMentions text other) : n.FirstMentioned other keyword := by
  obtain ⟨before,after,hsplit,hne,hmention,hbefore⟩ := h
  have hmem {k : String} (hk : k ∈ before ∨ k = keyword) : k ∈ n.keywords := by
    rw [hsplit, List.mem_append, List.mem_cons]
    exact hk.imp_right .inl
  refine ⟨before,after,hsplit,hne,(hsame keyword (hmem (.inr rfl)) hne).mp hmention,?_⟩
  intro earlier hearlier hne' hmention'
  exact hbefore earlier hearlier hne' ((hsame earlier (hmem (.inl hearlier)) hne').mpr hmention')

/-! ### Routing -/

/-- A segment without the strip prefix, or as it is if it does not begin with it. -/
def remainder (n : Naming) (segment : String) : String :=
  ((if n.routingStrip.isEmpty then none
    else n.routingStrip.toList.isPrefixOf? segment.toList).map String.ofList).getD segment

theorem remainder_eq_iff {segment : String} : n.remainder segment = service ↔
    segment = n.routingStrip ++ service ∨
      ¬ n.routingStrip.toList <+: segment.toList ∧ service = segment := by
  by_cases hstrip : n.routingStrip.toList <+: segment.toList
  · obtain ⟨rest,hrest⟩ := hstrip
    obtain rfl : segment = n.routingStrip ++ String.ofList rest := by
      rw [← String.toList_inj, String.toList_append, String.toList_ofList, hrest]
    have hremainder : n.remainder (n.routingStrip ++ String.ofList rest) = String.ofList rest := by
      by_cases hempty : n.routingStrip = ""
      · simp [remainder, hempty]
      · have hsplit : n.routingStrip.toList.isPrefixOf? (n.routingStrip.toList ++ rest) =
            some rest := List.isPrefixOf?_eq_some_iff_append_eq.mpr rfl
        simp [remainder, hempty, hsplit]
    rw [hremainder, String.append_right_inj]
    simp
  · have hremainder : n.remainder segment = segment := by
      have hnone : n.routingStrip.toList.isPrefixOf? segment.toList = none := by
        refine Option.eq_none_iff_forall_ne_some.mpr fun rest hrest => hstrip ?_
        exact ⟨rest,List.isPrefixOf?_eq_some_iff_append_eq.mp hrest⟩
      simp [remainder, hnone]
    have hnot : segment ≠ n.routingStrip ++ service := by
      rintro rfl
      rw [String.toList_append] at hstrip
      exact hstrip (List.prefix_append _ _)
    rw [hremainder]
    simp [hstrip, hnot, eq_comm]

theorem routedService?_eq_some {segment : String} :
    n.routedService? segment = some service ↔ n.NamesService segment service := by
  have hunfold : n.routedService? segment = if '{' ∈ segment.toList then none
      else if n.remainder segment = "" then none else some (n.remainder segment) := by
    simp [routedService?, remainder]
  rw [hunfold, NamesService, ← remainder_eq_iff]
  by_cases hbrace : '{' ∈ segment.toList
  · simp [hbrace]
  · rw [if_neg hbrace, Option.ite_none_left_eq_some, Option.some.injEq]
    constructor
    · rintro ⟨hne,rfl⟩
      exact ⟨hbrace,hne,rfl⟩
    · rintro ⟨_,hne,rfl⟩
      exact ⟨hne,rfl⟩

theorem findSome?_cons_eq_or {α β : Type} (f : α → Option β) (a : α) (as : List α) :
    (a :: as).findSome? f = (f a).or (as.findSome? f) := by
  rw [List.findSome?_cons]
  cases f a <;> rfl

theorem serviceAfterPrefix?_eq (n : Naming) (segments : List String) :
    n.serviceAfterPrefix? segments = (neighbours segments).findSome? fun pair =>
      if pair.1 ∈ n.routingPrefixes then n.routedService? pair.2 else none := by
  induction segments with
  | nil => rfl
  | cons mark rest ih =>
    cases rest with
    | nil => rfl
    | cons segment rest =>
      have hpairs : neighbours (mark :: segment :: rest) =
          (mark,segment) :: neighbours (segment :: rest) := rfl
      rw [serviceAfterPrefix?, ih, hpairs, findSome?_cons_eq_or]
      simp only [List.contains_iff_mem, Option.orElse_eq_orElse, Option.orElse_eq_or]

theorem serviceAfterPrefix?_eq_some {segments : List String} :
    n.serviceAfterPrefix? segments = some service ↔ n.FirstRouted segments service := by
  have hnot (pair : String × String) :
      (if pair.1 ∈ n.routingPrefixes then n.routedService? pair.2 else none) = none ↔
        (pair.1 ∈ n.routingPrefixes → ∀ other, ¬ n.NamesService pair.2 other) := by
    rw [ite_eq_right_iff]
    refine imp_congr_right fun _ => ?_
    simp only [Option.eq_none_iff_forall_ne_some, ne_eq, routedService?_eq_some]
  rw [serviceAfterPrefix?_eq, List.findSome?_eq_some_iff]
  simp only [hnot, Option.ite_none_right_eq_some, routedService?_eq_some]
  constructor
  · rintro ⟨before,⟨mark,segment⟩,after,hsplit,⟨hmark,hnames⟩,hbefore⟩
    exact ⟨before,mark,segment,after,hsplit,hmark,hnames,hbefore⟩
  · rintro ⟨before,mark,segment,after,hsplit,hmark,hnames,hbefore⟩
    exact ⟨before,(mark,segment),after,hsplit,⟨hmark,hnames⟩,hbefore⟩

/-! ## The first rule -/

/-- What each rule by itself answers. -/
def answer? (n : Naming) (x : OwnerInput) : OwnershipRule → Option String
  | .operationTable => n.operationServices.get? x.id
  | .pathKeyword => n.keywordIn? x.path
  | .idKeyword => n.keywordIn? x.id
  | .extension => x.hints.service.filter (! ·.isEmpty)
  | .tag => x.hints.tags.head?.filter (! ·.isEmpty)
  | .routing => n.serviceAfterPrefix? (Template.segments x.path)

variable {x y : OwnerInput} {r : OwnershipRule}

theorem answer?_eq_some : n.answer? x r = some service ↔ n.Applies x r service := by
  cases r with
  | operationTable => exact ⟨.operationTable,fun | .operationTable h => h⟩
  | pathKeyword =>
    refine keywordIn?_eq_some.trans ⟨?_,fun | .pathKeyword h => ⟨_,h,rfl⟩⟩
    rintro ⟨keyword,h,rfl⟩
    exact .pathKeyword h
  | idKeyword =>
    refine keywordIn?_eq_some.trans ⟨?_,fun | .idKeyword h => ⟨_,h,rfl⟩⟩
    rintro ⟨keyword,h,rfl⟩
    exact .idKeyword h
  | extension =>
    rw [answer?, Option.filter_eq_some_iff]
    refine ⟨fun ⟨h,hne⟩ => .extension h (by simpa using hne),?_⟩
    exact fun | .extension h hne => ⟨h,by simpa using hne⟩
  | tag =>
    rw [answer?, Option.filter_eq_some_iff, List.head?_eq_some_iff]
    refine ⟨fun ⟨⟨later,h⟩,hne⟩ => .tag h (by simpa using hne),?_⟩
    exact fun | .tag h hne => ⟨⟨_,h⟩,by simpa using hne⟩
  | routing => exact serviceAfterPrefix?_eq_some.trans ⟨.routing,fun | .routing h => h⟩

def rulesInOrder : List OwnershipRule :=
  [.operationTable,.pathKeyword,.idKeyword,.extension,.tag,.routing]

/-- A rule stands after those of less rank and before all others. -/
theorem mem_rules_before {before after : List OwnershipRule}
    (h : rulesInOrder = before ++ r :: after) (earlier : OwnershipRule) :
    earlier ∈ before ↔ earlier.rank < r.rank := by
  have hall : ∀ rule, rule ∈ rulesInOrder := by
    intro rule
    cases rule <;> decide
  have hranks : rulesInOrder.Pairwise fun a b => a.rank < b.rank := by decide
  rw [h, List.pairwise_append, List.pairwise_cons] at hranks
  obtain ⟨_,⟨hafter,_⟩,hbefore⟩ := hranks
  constructor
  · intro hmem
    exact hbefore earlier hmem r List.mem_cons_self
  · intro hlt
    have hmem := h ▸ hall earlier
    rcases List.mem_append.mp hmem with hmem | hmem
    · exact hmem
    · rcases List.mem_cons.mp hmem with rfl | hmem
      · exact absurd hlt (Nat.lt_irrefl _)
      · exact absurd hlt (Nat.lt_asymm (hafter earlier hmem))

theorem service?_eq (n : Naming) (x : OwnerInput) : n.service? x.id x.path x.hints =
    rulesInOrder.findSome? fun r => (n.answer? x r).map (·,r) := by
  simp only [rulesInOrder, findSome?_cons_eq_or, List.findSome?_nil, Option.or_none, service?,
    Option.orElse_eq_orElse, Option.orElse_eq_or, answer?]

/-- The service is that of the first rule with an answer. -/
theorem service?_eq_some : n.service? x.id x.path x.hints = some (service,r) ↔
    n.answer? x r = some service ∧
      ∀ earlier, earlier.rank < r.rank → n.answer? x earlier = none := by
  rw [service?_eq, List.findSome?_eq_some_iff]
  simp only [Option.map_eq_some_iff, Option.map_eq_none_iff, Prod.mk.injEq]
  constructor
  · rintro ⟨before,r,after,hsplit,⟨service,hanswer,rfl,rfl⟩,hbefore⟩
    refine ⟨hanswer,fun earlier hearlier => hbefore earlier ?_⟩
    exact (mem_rules_before hsplit earlier).mpr hearlier
  · rintro ⟨hanswer,hearlier⟩
    obtain ⟨before,after,hsplit⟩ : ∃ before after, rulesInOrder = before ++ r :: after :=
      List.append_of_mem (by cases r <;> decide)
    refine ⟨before,r,after,hsplit,⟨service,hanswer,rfl,rfl⟩,fun earlier hmem => ?_⟩
    exact hearlier earlier ((mem_rules_before hsplit earlier).mp hmem)

theorem service?_eq_none : n.service? x.id x.path x.hints = none ↔
    ∀ r, n.answer? x r = none := by
  rw [service?_eq, List.findSome?_eq_none_iff]
  simp only [Option.map_eq_none_iff]
  exact ⟨fun h r => h r (by cases r <;> decide),fun h r _ => h r⟩

/-! ## What is not read -/

/-- The rule reads the same of both. -/
def ReadsSame (n : Naming) (x y : OwnerInput) : OwnershipRule → Prop
  | .operationTable => n.operationServices.get? x.id = n.operationServices.get? y.id
  | .pathKeyword => n.SameMentions x.path y.path
  | .idKeyword => n.SameMentions x.id y.id
  | .extension => x.hints.service = y.hints.service
  | .tag => x.hints.tags.head? = y.hints.tags.head?
  | .routing => Template.segments x.path = Template.segments y.path

theorem keywordIn?_congr {other : String} (h : n.SameMentions text other) :
    n.keywordIn? text = n.keywordIn? other := by
  have hother : n.SameMentions other text := fun k hk hne => (h k hk hne).symm
  refine Option.ext fun service => ?_
  rw [keywordIn?_eq_some, keywordIn?_eq_some]
  exact exists_congr fun k => and_congr_left fun _ => ⟨(·.congr h),(·.congr hother)⟩

theorem answer?_congr (h : n.ReadsSame x y r) : n.answer? x r = n.answer? y r := by
  cases r with
  | operationTable => exact h
  | pathKeyword => exact keywordIn?_congr h
  | idKeyword => exact keywordIn?_congr h
  | extension => exact congrArg (Option.filter (! ·.isEmpty)) h
  | tag => exact congrArg (Option.filter (! ·.isEmpty)) h
  | routing => exact congrArg n.serviceAfterPrefix? h

/-- What only rules after one that applies read does not matter. -/
theorem service?_congr (happlies : n.Applies x r service)
    (hsame : ∀ earlier, earlier.rank ≤ r.rank → n.ReadsSame x y earlier) :
    n.service? x.id x.path x.hints = n.service? y.id y.path y.hints := by
  cases hfirst : n.service? x.id x.path x.hints with
  | none =>
    have hnone := service?_eq_none.mp hfirst r
    rw [answer?_eq_some.mpr happlies] at hnone
    cases hnone
  | some found =>
    obtain ⟨hanswer,hearlier⟩ := service?_eq_some.mp hfirst
    have hle : found.2.rank ≤ r.rank := by
      by_contra hlt
      have hnone := hearlier r (Nat.lt_of_not_le hlt)
      rw [answer?_eq_some.mpr happlies] at hnone
      cases hnone
    refine (service?_eq_some.mpr ⟨?_,fun earlier hlt => ?_⟩).symm
    · rw [← answer?_congr (hsame _ hle), hanswer]
    · rw [← answer?_congr (hsame _ (Nat.le_trans (Nat.le_of_lt hlt) hle)), hearlier earlier hlt]

/-! ## Owners -/

theorem owner?_eq_some {package : String} :
    n.owner? x.id x.path x.hints = some ⟨service,package,r⟩ ↔
      n.Applies x r service ∧ package = n.packageOf service ∧
        ∀ earlier, earlier.rank < r.rank → ∀ other, ¬ n.Applies x earlier other := by
  have hnone (rule : OwnershipRule) :
      n.answer? x rule = none ↔ ∀ other, ¬ n.Applies x rule other := by
    simp only [Option.eq_none_iff_forall_ne_some, ne_eq, answer?_eq_some]
  rw [owner?, Option.map_eq_some_iff, ← answer?_eq_some]
  simp only [← hnone]
  constructor
  · rintro ⟨⟨service,rule⟩,hservice,he⟩
    cases he
    obtain ⟨hanswer,hearlier⟩ := service?_eq_some.mp hservice
    exact ⟨hanswer,rfl,hearlier⟩
  · rintro ⟨hanswer,rfl,hearlier⟩
    exact ⟨(service,r),service?_eq_some.mpr ⟨hanswer,hearlier⟩,rfl⟩

theorem owner?_eq_none : n.owner? x.id x.path x.hints = none ↔
    ∀ rule other, ¬ n.Applies x rule other := by
  rw [owner?, Option.map_eq_none_iff, service?_eq_none]
  simp only [Option.eq_none_iff_forall_ne_some, ne_eq, answer?_eq_some]

theorem owner?_congr (happlies : n.Applies x r service)
    (hsame : ∀ earlier, earlier.rank ≤ r.rank → n.ReadsSame x y earlier) :
    n.owner? x.id x.path x.hints = n.owner? y.id y.path y.hints := by
  rw [owner?, owner?, service?_congr happlies hsame]

/-- Some keyword is mentioned, so one is the first. -/
theorem exists_firstMentioned {keyword : String} (hk : keyword ∈ n.keywords) (hne : keyword ≠ "")
    (h : Mentions text keyword) : ∃ first, n.FirstMentioned text first := by
  have hsome : (n.keywordIn? text).isSome = true := by
    rw [keywordIn?_eq, Option.isSome_map, List.find?_isSome]
    exact ⟨keyword,hk,decide_eq_true ⟨hne,h⟩⟩
  obtain ⟨service,hservice⟩ := Option.isSome_iff_exists.mp hsome
  obtain ⟨first,hfirst,_⟩ := keywordIn?_eq_some.mp hservice
  exact ⟨first,hfirst⟩

theorem SameMentions.refl (n : Naming) (text : String) : n.SameMentions text text :=
  fun _ _ _ => Iff.rfl

/-- Two inputs that differ in their hints are the same to all rules before these are read. -/
theorem readsSame_hints (n : Naming) (id path : String) (hints hints' : OwnerHints)
    (h : r.rank ≤ OwnershipRule.idKeyword.rank) :
    n.ReadsSame ⟨id,path,hints⟩ ⟨id,path,hints'⟩ r := by
  cases r with
  | operationTable => rfl
  | pathKeyword => exact .refl n path
  | idKeyword => exact .refl n id
  | extension => exact absurd h (by decide)
  | tag => exact absurd h (by decide)
  | routing => exact absurd h (by decide)

/-- The rules of `n` in their order of precedence, and what does not matter for the owner: whatever
only rules after one that applies read. -/
structure FirstRuleOwns (n : Naming) : Prop where
  /-- The owner is that of the first rule that applies. -/
  some_iff : ∀ x service package rule,
    n.owner? x.id x.path x.hints = some ⟨service,package,rule⟩ ↔
      n.Applies x rule service ∧ package = n.packageOf service ∧
        ∀ earlier, earlier.rank < rule.rank → ∀ other, ¬ n.Applies x earlier other
  none_iff : ∀ x, n.owner? x.id x.path x.hints = none ↔ ∀ rule service, ¬ n.Applies x rule service
  unread : ∀ x y rule service, n.Applies x rule service →
    (∀ earlier, earlier.rank ≤ rule.rank → n.ReadsSame x y earlier) →
      n.owner? x.id x.path x.hints = n.owner? y.id y.path y.hints
  /-- With a keyword in the path or the id, hints are not read. -/
  hints_unread : ∀ id path, ∀ keyword ∈ n.keywords, keyword ≠ "" →
    Mentions path keyword ∨ Mentions id keyword →
      ∀ hints hints', n.owner? id path hints = n.owner? id path hints'
  tags_unread : ∀ id path service, service ≠ "" →
    ∀ tags tags', n.owner? id path ⟨some service,tags⟩ = n.owner? id path ⟨some service,tags'⟩
  later_tags_unread : ∀ id path extension first later later',
    n.owner? id path ⟨extension,first :: later⟩ = n.owner? id path ⟨extension,first :: later'⟩
  /-- With any other rule, of a path only its keywords are read. -/
  segments_unread : ∀ id path hints rule service, n.Applies ⟨id,path,hints⟩ rule service →
    rule ≠ .routing → ∀ path', n.SameMentions path path' →
      n.owner? id path hints = n.owner? id path' hints
  case_unread : ∀ id path, ∀ keyword ∈ n.keywords, keyword ≠ "" → Mentions path keyword →
    ∀ path', SameButCase path path' → ∀ hints, n.owner? id path hints = n.owner? id path' hints

/-- The first rule that applies owns the operation, whatever the rules after it would say. -/
theorem first_rule_owns (n : Naming) : FirstRuleOwns n where
  some_iff := fun _ _ _ _ => owner?_eq_some
  none_iff := fun _ => owner?_eq_none
  unread := fun _ _ _ _ => owner?_congr
  hints_unread := by
    intro id path keyword hk hne hmention hints hints'
    rcases hmention with hmention | hmention
    · obtain ⟨first,hfirst⟩ := exists_firstMentioned hk hne hmention
      refine owner?_congr (x := ⟨id,path,hints⟩) (y := ⟨id,path,hints'⟩) (.pathKeyword hfirst) ?_
      intro earlier hle
      exact readsSame_hints n id path hints hints' (Nat.le_trans hle (by decide))
    · obtain ⟨first,hfirst⟩ := exists_firstMentioned hk hne hmention
      refine owner?_congr (x := ⟨id,path,hints⟩) (y := ⟨id,path,hints'⟩) (.idKeyword hfirst) ?_
      intro earlier hle
      exact readsSame_hints n id path hints hints' hle
  tags_unread := by
    intro id path service hne tags tags'
    refine owner?_congr (x := ⟨id,path,_⟩) (y := ⟨id,path,_⟩) (.extension rfl hne) ?_
    intro earlier hle
    cases earlier with
    | extension => rfl
    | tag => exact absurd hle (by decide)
    | routing => exact absurd hle (by decide)
    | _ => exact readsSame_hints n id path _ _ (by decide)
  later_tags_unread := by
    intro id path extension first later later'
    rw [owner?, owner?, service?, service?, List.head?_cons, List.head?_cons]
  segments_unread := by
    intro id path hints rule service happlies hne path' hsame
    refine owner?_congr (x := ⟨id,path,hints⟩) (y := ⟨id,path',hints⟩) happlies ?_
    intro earlier hle
    cases earlier with
    | pathKeyword => exact hsame
    | idKeyword => exact .refl n id
    | routing => exact absurd hle (Nat.not_le_of_lt (OwnershipRule.rank_lt_routing hne))
    | _ => rfl
  case_unread := by
    intro id path keyword hk hne hmention path' hcase hints
    obtain ⟨first,hfirst⟩ := exists_firstMentioned hk hne hmention
    refine owner?_congr (x := ⟨id,path,hints⟩) (y := ⟨id,path',hints⟩) (.pathKeyword hfirst) ?_
    intro earlier hle
    cases earlier with
    | operationTable => rfl
    | pathKeyword => exact fun k _ _ => hcase.mentions_iff k
    | _ => exact absurd hle (by decide)

end Naming
end ClientGen
