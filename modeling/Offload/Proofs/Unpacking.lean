import Offload.Backend.Host.Kernel
import Offload.Proofs.Heading
import Offload.Proofs.Pieces
import Mathlib.Data.List.Forall2

/-!
Patterns that take the elements of a nest apart. The pattern lists the targets of the loops, and a
target that is itself a list is put in parentheses, unless it begins with one. So a target that begins
with a pair and goes on behind it is left open: its parts become parts of the pattern, which then has
more parts than there are loops.
-/
namespace Offload

open Text

/-- The target of a header is not empty, has no blanks around it and closes its brackets. -/
structure ForHeader.Settled (header : ForHeader) : Prop where
  nonempty : header.target ≠ []
  trimmed : trim header.target = header.target
  closed : depthAfter 0 header.target = 0

theorem Text.trim_cons {c : Char} (h : isBlank c = false) (t : Text) :
    trim (c :: t) = c :: trimEnd t := by
  have hstart : trimStart (c :: t) = c :: t := List.dropWhile_cons_of_neg (by simp [h])
  rw [trim_eq, hstart]
  exact trimEnd_append_cons h [] t

theorem ForHeader.settled_of_parse? {statement : Text} {header : ForHeader}
    (h : parse? statement = some header) : header.Settled := by
  obtain ⟨c, rest, -, -, hclause⟩ := parse?_eq_some_iff.1 h
  obtain ⟨target, more, iterable, behind, hin, -, hne, -, rfl⟩ := ofClause?_eq_some_iff.1 hclause
  exact ⟨hne, trim_trim target, by rw [depthAfter_trim, hin.outside]⟩

namespace Host

/-! Parts of a pattern. -/

/-- The parts of a pattern, which stand between the commas outside all brackets; a comma at the very
end adds none. -/
def patternParts (t : Text) : List Text :=
  let pieces := (t.splitOutside ',').map trim
  if pieces.getLast? = some [] then pieces.dropLast else pieces

/-- A part that stands for a target: the target, bare or in parentheses. -/
def IsPart (target part : Text) : Prop := part = target ∨ part = '(' :: (target ++ [')'])

/-- What the pattern has for a target. -/
def part (target : Text) : Text :=
  if target.contains ',' && target.head? != some '(' then '(' :: (target ++ [')']) else target

/-- Every comma of the target stands behind an open bracket of it, or behind the parenthesis that is
put in front of it if it does not begin with one. -/
def Keeps (target : Text) : Prop :=
  ∀ a b, target = a ++ ',' :: b → 0 < depthAfter (if target.head? = some '(' then 0 else 1) a

variable {headers : List ForHeader} {target : Text}

theorem isPart_part (target : Text) : IsPart target (part target) := by
  unfold part
  split
  · exact .inr rfl
  · exact .inl rfl

theorem targetPattern_eq (hlength : 2 ≤ headers.length) (h : ∀ header ∈ headers, header.Settled) :
    targetPattern headers = join ", " (headers.map fun header => part header.target) := by
  have hparts : ∀ header ∈ headers,
      (if (trim header.target).contains ',' && (trim header.target).head? != some '(' then
        "(" ++ trim header.target ++ ")" else trim header.target) = part header.target := by
    intro header hheader
    rw [(h header hheader).trimmed]
    rfl
  rcases headers with _ | ⟨first, _ | ⟨second, rest⟩⟩
  · simp at hlength
  · simp at hlength
  · rw [targetPattern, List.map_congr_left hparts]
    nofun

/-- A target that holds a comma is put in parentheses, or begins with one. -/
theorem part_of_mem (h : ',' ∈ target) :
    part target = if target.head? = some '(' then target else '(' :: (target ++ [')']) := by
  by_cases hhead : target.head? = some '(' <;> simp [part, h, hhead]

theorem part_of_not_mem (h : ',' ∉ target) : part target = target := by
  simp [part, h]

theorem depthAfter_part (h : depthAfter 0 target = 0) : depthAfter 0 (part target) = 0 := by
  unfold part
  split
  · have hle : depthAfter 1 target ≤ depthAfter 0 target + 1 := depthAfter_succ_le 0 target
    have hwrap : depthAfter 0 ('(' :: (target ++ [')'])) = depthAfter 1 target - 1 := by
      change depthAfter 1 (target ++ [')']) = _
      rw [depthAfter_append]
      rfl
    omega
  · exact h

/-- The part for a target is one piece exactly if its commas stand behind brackets. -/
theorem whole_part_iff : Whole ',' 0 (part target) ↔ Keeps target := by
  by_cases hmem : ',' ∈ target
  · rw [part_of_mem hmem, Keeps, ← whole_iff (by decide) (by decide)]
    split
    · rfl
    · rw [whole_cons, whole_append]
      have hback : Whole ',' (depthAfter 1 target) [')'] := whole_of_not_mem (by decide)
      change (_ ∧ Whole ',' 1 target ∧ Whole ',' (depthAfter 1 target) [')']) ↔ _
      simp [hback, splitsAt]
  · rw [part_of_not_mem hmem]
    refine ⟨fun _ a b heq => ?_, fun _ => whole_of_not_mem hmem⟩
    exact absurd (by rw [heq]; simp) hmem

theorem trim_part {header : ForHeader} (h : header.Settled) :
    trim (part header.target) = part header.target := by
  unfold part
  split
  · have hwrap : '(' :: (header.target ++ [')']) = ['('] ++ header.target ++ [')'] := rfl
    rw [hwrap]
    exact trim_append_append (by simp) (by simp) (by decide) (by decide) header.target
  · exact h.trimmed

theorem part_ne_nil {header : ForHeader} (h : header.Settled) : part header.target ≠ [] := by
  unfold part
  split
  · simp
  · exact h.nonempty

theorem exists_patternParts_append (t : Text) :
    ∃ rest, (t.splitOutside ',').map trim = patternParts t ++ rest := by
  unfold patternParts
  dsimp only
  split
  · next hlast => exact ⟨[[]], (List.dropLast_append_getLast? _ hlast).symm⟩
  · exact ⟨[], by simp⟩

/-- The first piece of a part stands for the target only if it is the whole part. -/
theorem eq_nil_of_isPart {header : ForHeader} {first : Text} {more : List Text}
    (hsplit : (part header.target).splitOutside ',' = first :: more)
    (hpart : IsPart header.target (trim first)) : more = [] := by
  by_contra hne
  obtain ⟨next, rest, rfl⟩ := List.exists_cons_of_ne_nil hne
  have hjoin := join_splitAtDepth ',' 0 (part header.target)
  rw [splitOutside] at hsplit
  rw [hsplit, join_cons_cons, List.append_assoc] at hjoin
  have hmem : ',' ∈ header.target := by
    by_contra hmem
    have hwhole : Whole ',' 0 (part header.target) := by
      rw [part_of_not_mem hmem]
      exact whole_of_not_mem hmem
    rw [Whole, hsplit] at hwhole
    simp at hwhole
  obtain ⟨a, b, hfirst, -, -⟩ := exists_trim first
  have hlength : (trim first).length < (part header.target).length := by
    rw [← hjoin]
    conv_rhs => rw [hfirst]
    simp
    omega
  rw [part_of_mem hmem] at hjoin hlength
  split at hlength
  · rcases hpart with hpart | hpart
    · rw [hpart] at hlength
      omega
    · rw [hpart, List.length_cons, List.length_append] at hlength
      omega
  · next hhead =>
    rw [if_neg hhead] at hjoin
    rcases hpart with hpart | hpart
    · -- The piece begins with the parenthesis, which the target does not.
      cases first with
      | nil => simp at hjoin
      | cons c cs =>
        obtain ⟨rfl, -⟩ := List.cons.inj hjoin
        rw [trim_cons (by decide)] at hpart
        rw [← hpart] at hhead
        simp at hhead
    · rw [hpart] at hlength
      omega

/-- Parts that stand for the targets one by one leave no target open. -/
theorem keeps_of_forall₂ {parts rest : List Text}
    (hparts : List.Forall₂ (fun header part => IsPart header.target part) headers parts)
    (hpieces : headers.flatMap (fun header => ((part header.target).splitOutside ',').map trim) =
      parts ++ rest) : ∀ header ∈ headers, Keeps header.target := by
  induction hparts with
  | nil => simp
  | @cons header found headers parts hfound _ ih =>
    obtain ⟨first, more, hsplit⟩ := exists_splitAtDepth ',' 0 (part header.target)
    rw [List.flatMap_cons, splitOutside, hsplit, List.map_cons, List.cons_append,
      List.cons_append] at hpieces
    obtain ⟨rfl, hrest⟩ := List.cons.inj hpieces
    obtain rfl := eq_nil_of_isPart hsplit hfound
    have hwhole : Whole ',' 0 (part header.target) := by
      have hjoin := join_splitAtDepth ',' 0 (part header.target)
      rw [hsplit] at hjoin
      rw [Whole, hsplit, ← hjoin]
      simp [join]
    exact List.forall_mem_cons.2 ⟨whole_part_iff.1 hwhole, ih hrest⟩

theorem patternParts_eq (h : ∀ header ∈ headers, header.Settled)
    (hkeeps : ∀ header ∈ headers, Keeps header.target)
    (hpieces : ((targetPattern headers).splitOutside ',').map trim =
      headers.flatMap fun header => ((part header.target).splitOutside ',').map trim) :
    patternParts (targetPattern headers) = headers.map fun header => part header.target := by
  have hsingle : headers.flatMap (fun header => ((part header.target).splitOutside ',').map trim) =
      headers.map fun header => part header.target := by
    rw [List.map_eq_flatMap]
    apply List.flatMap_congr
    intro header hheader
    have hwhole : splitAtDepth ',' 0 (part header.target) = [part header.target] :=
      whole_part_iff.2 (hkeeps header hheader)
    rw [splitOutside, hwhole, List.map_singleton, trim_part (h header hheader)]
  unfold patternParts
  dsimp only
  rw [hpieces, hsingle, if_neg]
  intro hlast
  obtain ⟨header, hheader, hempty⟩ := List.mem_map.1 (List.mem_of_getLast? hlast)
  exact part_ne_nil (h header hheader) hempty

/-- The parts of the pattern stand for the targets exactly if no target is left open. -/
theorem forall₂_patternParts_iff (hlength : 2 ≤ headers.length)
    (h : ∀ header ∈ headers, header.Settled) :
    List.Forall₂ (fun header part => IsPart header.target part) headers
        (patternParts (targetPattern headers)) ↔
      ∀ header ∈ headers, Keeps header.target := by
  have hne : headers.map (fun header => part header.target) ≠ [] := by
    rw [Ne, List.map_eq_nil_iff]
    rintro rfl
    simp at hlength
  have hpieces : ((targetPattern headers).splitOutside ',').map trim =
      headers.flatMap fun header => ((part header.target).splitOutside ',').map trim := by
    rw [targetPattern_eq hlength h, map_trim_splitOutside_join hne, List.flatMap_map]
    intro piece hpiece
    obtain ⟨header, hheader, rfl⟩ := List.mem_map.1 hpiece
    exact depthAfter_part (h header hheader).closed
  constructor
  · intro hparts
    obtain ⟨rest, hrest⟩ := exists_patternParts_append (targetPattern headers)
    exact keeps_of_forall₂ hparts (hpieces.symm.trans hrest)
  · intro hkeeps
    rw [patternParts_eq h hkeeps hpieces, List.forall₂_map_right_iff, List.forall₂_same]
    exact fun header _ => isPart_part header.target

/-! Taking elements apart. -/

/-- Takes a sequence of values apart: there have to be as many of them as the pattern has parts. -/
def unpack? {α : Type} (pattern : Text) (values : List α) : Option (List (Text × α)) :=
  if (patternParts pattern).length = values.length then some ((patternParts pattern).zip values)
  else none

/-- The element for one round of a nest, where `value` tells what expressions stand for in it: a
product has the values of the loops, a generator those of the parts of its pattern. -/
inductive IsElement {α : Type} (value : Text → α) (headers : List ForHeader) :
    IterationSpace → List α → Prop
  | product (iterables : List Text) :
    IsElement value headers (.product iterables) (headers.map fun header => value header.target)
  | generator (pattern : Text) (clauses : List ForHeader) :
    IsElement value headers (.generator pattern clauses) ((patternParts pattern).map value)

/-- Each loop's target, as a part of its own, is bound to the value of the loop. -/
def Binds {α : Type} (value : Text → α) (headers : List ForHeader)
    (bindings : List (Text × α)) : Prop :=
  List.Forall₂ (fun header binding => IsPart header.target binding.1 ∧
    binding.2 = value header.target) headers bindings

section

variable {α : Type} {value : Text → α} {parts : List Text} {element : List α}

theorem binds_product
    (hparts : List.Forall₂ (fun header part => IsPart header.target part) headers parts) :
    Binds value headers (parts.zip (headers.map fun header => value header.target)) := by
  induction hparts with
  | nil => exact .nil
  | cons hpart _ ih => exact .cons ⟨hpart, rfl⟩ ih

theorem binds_generator
    (hvalue : ∀ header ∈ headers, value ('(' :: (header.target ++ [')'])) = value header.target)
    (hparts : List.Forall₂ (fun header part => IsPart header.target part) headers parts) :
    Binds value headers (parts.zip (parts.map value)) := by
  induction hparts with
  | nil => exact .nil
  | cons hpart _ ih =>
    obtain ⟨hfirst, hrest⟩ := List.forall_mem_cons.1 hvalue
    refine .cons ⟨hpart, ?_⟩ (ih hrest)
    rcases hpart with rfl | rfl
    · rfl
    · exact hfirst

theorem eq_of_isElement (h : IsElement value headers (IterationSpace.ofHeaders headers) element) :
    element = headers.map (fun header => value header.target) ∨
      element = (patternParts (targetPattern headers)).map value := by
  generalize hspace : IterationSpace.ofHeaders headers = space at h
  cases h with
  | product => exact .inl rfl
  | generator pattern clauses =>
    right
    unfold IterationSpace.ofHeaders at hspace
    split at hspace
    · simp at hspace
    · split at hspace
      · obtain ⟨rfl, -⟩ := IterationSpace.generator.inj hspace
        rfl
      · simp at hspace

/-- Taking an element apart binds the targets exactly if the parts of the pattern stand for them. -/
theorem exists_binds_iff
    (hvalue : ∀ header ∈ headers, value ('(' :: (header.target ++ [')'])) = value header.target)
    (h : IsElement value headers (IterationSpace.ofHeaders headers) element) :
    (∃ bindings, unpack? (targetPattern headers) element = some bindings ∧
        Binds value headers bindings) ↔
      List.Forall₂ (fun header part => IsPart header.target part) headers
        (patternParts (targetPattern headers)) := by
  constructor
  · rintro ⟨bindings, hunpack, hbinds⟩
    unfold unpack? at hunpack
    split at hunpack
    · next hlength =>
      obtain rfl := Option.some.inj hunpack
      have hparts := hbinds.imp fun _ _ hboth => hboth.1
      rw [← List.forall₂_map_right_iff, List.map_fst_zip hlength.le] at hparts
      exact hparts
    · simp at hunpack
  · intro hparts
    have hcount := hparts.length_eq
    have hunpack : (patternParts (targetPattern headers)).length = element.length →
        unpack? (targetPattern headers) element =
          some ((patternParts (targetPattern headers)).zip element) := fun hlength => if_pos hlength
    rcases eq_of_isElement h with rfl | rfl
    · exact ⟨_, hunpack (by simp [hcount]), binds_product hparts⟩
    · exact ⟨_, hunpack (by simp), binds_generator hvalue hparts⟩

end

/-- In a target with nested brackets a parenthesis in front keeps every comma inside. -/
theorem keeps_iff_of_nested (h : Nested target) :
    Keeps target ↔
      ¬ (target.head? = some '(' ∧ ∃ a b, target = a ++ ',' :: b ∧ depthAfter 0 a = 0) := by
  constructor
  · rintro hkeeps ⟨hhead, a, b, heq, hzero⟩
    have hpos := hkeeps a b heq
    rw [if_pos hhead] at hpos
    omega
  · intro hnot a b heq
    split
    · next hhead =>
      by_contra hzero
      exact hnot ⟨hhead, a, b, heq, by omega⟩
    · rw [heq, Nested, dueAfter_append] at h
      obtain ⟨due, hdue, -⟩ := Option.bind_eq_some_iff.1 h
      have hdepth := depthAfter_of_dueAfter (dueAfter_frame hdue [')'])
      rw [List.length_append] at hdepth
      change depthAfter 1 a = _ at hdepth
      rw [hdepth]
      simp

/-- The parts of the pattern are the targets of the loops, and so an element of the nest binds each
target to the value of its loop, exactly if no target is left open. Where brackets are nested, a
target is left open only if it begins with a parenthesis and has a comma outside all brackets. -/
theorem targets_bound_iff_kept (hlength : 2 ≤ headers.length)
    (hread : ∀ header ∈ headers, ∃ statement, ForHeader.parse? statement = some header) :
    (List.Forall₂ (fun header part => IsPart header.target part) headers
        (patternParts (targetPattern headers)) ↔ ∀ header ∈ headers, Keeps header.target) ∧
    (∀ (α : Type) (value : Text → α) (element : List α),
      (∀ header ∈ headers, value ('(' :: (header.target ++ [')'])) = value header.target) →
      IsElement value headers (IterationSpace.ofHeaders headers) element →
      ((∃ bindings, unpack? (targetPattern headers) element = some bindings ∧
        Binds value headers bindings) ↔ ∀ header ∈ headers, Keeps header.target)) ∧
    ∀ header ∈ headers, Nested header.target →
      (Keeps header.target ↔ ¬ (header.target.head? = some '(' ∧
        ∃ a b, header.target = a ++ ',' :: b ∧ depthAfter 0 a = 0)) := by
  have hsettled : ∀ header ∈ headers, header.Settled := by
    intro header hheader
    obtain ⟨statement, hstatement⟩ := hread header hheader
    exact ForHeader.settled_of_parse? hstatement
  have hparts := forall₂_patternParts_iff hlength hsettled
  refine ⟨hparts, fun α value element hvalue helement => ?_, fun header _ => keeps_iff_of_nested⟩
  rw [exists_binds_iff hvalue helement, hparts]

/-- Two nests over pairs. The first target of the one begins with a pair. -/
def openPair : List ForHeader := [⟨"(a, b), c", "xs"⟩, ⟨"j", "ys"⟩]

def closedPair : List ForHeader := [⟨"a, (b, c)", "xs"⟩, ⟨"j", "ys"⟩]

/-- The pattern of the one nest has three parts, and that of the other binds its targets. -/
theorem openPair_left_open_closedPair_bound :
    ¬ List.Forall₂ (fun header part => IsPart header.target part) openPair
        (patternParts (targetPattern openPair)) ∧
      ∃ bindings, unpack? (targetPattern closedPair) [1, 2] = some bindings ∧
        Binds (fun t => if 'j' ∈ t then 2 else 1) closedPair bindings := by
  have hopen : ∀ header ∈ openPair, ∃ statement, ForHeader.parse? statement = some header :=
    List.forall_mem_cons.2 ⟨⟨"for (a, b), c in xs:", by decide⟩,
      List.forall_mem_singleton.2 ⟨"for j in ys:", by decide⟩⟩
  have hclosed : ∀ header ∈ closedPair, ∃ statement, ForHeader.parse? statement = some header :=
    List.forall_mem_cons.2 ⟨⟨"for a, (b, c) in xs:", by decide⟩,
      List.forall_mem_singleton.2 ⟨"for j in ys:", by decide⟩⟩
  constructor
  · rw [(targets_bound_iff_kept (by decide) hopen).1]
    intro hkeeps
    have hpos := hkeeps _ List.mem_cons_self "(a, b)" " c" rfl
    exact absurd hpos (by decide)
  · obtain ⟨-, hbound, hnested⟩ := targets_bound_iff_kept (by decide) hclosed
    refine (hbound Nat _ [1, 2] (by decide) ?_).2 fun header hheader => ?_
    · have hspace : IterationSpace.ofHeaders closedPair = .product ["xs", "ys"] := by
        have hindependent : ¬ isDependent closedPair = true := by decide +kernel
        exact if_neg hindependent
      rw [hspace]
      exact .product ["xs", "ys"]
    · refine (hnested header hheader ?_).2 fun hfront => ?_
      · revert header
        decide
      · have hnone : ∀ header ∈ closedPair, header.target.head? ≠ some '(' := by decide
        exact hnone header hheader hfront.1

end Host

end Offload
