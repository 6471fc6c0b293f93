import Offload.Proofs.Encoding
import Offload.Proofs.Origin
import Offload.Proofs.Sizes
import Offload.Proofs.Tightness

/-!
What a launch replaces. The launch takes the place of the outermost loop of a nest, and the body of
the innermost loop moves into the kernel. Since the nest is tight, only the headers lie between the
two, and an `else` branch can be left over behind the outermost loop only.
-/
namespace Offload

open Outcome

namespace Line

/-- The line begins with the word `else`. -/
def beginsElse (line : Line) : Bool := Text.opensWith "else" (Text.trimStart line.text)

/-- The line begins with the word `else`, and is not seen as a part of a statement. -/
def hidesElse (line : Line) : Bool := line.beginsElse && !line.resumesStatement

end Line

namespace Source

/-- The statement at line `l` is over at line `n`, where the first one behind it starts that does not
stand deeper. -/
structure IsOverAt (s : Source) (l n : Nat) : Prop where
  behind : s.logicalEnd l < n
  starts : s.has Line.startsStatement n = true
  shallow : s.indentAt n ≤ s.indentAt l
  deeper : ∀ m, s.logicalEnd l < m → m < n → s.has Line.startsStatement m = true →
    s.indentAt l < s.indentAt m

/-- A line `n` with the given mark goes on with the statement at line `l`. -/
def GoesOnWith (s : Source) (mark : Line → Bool) (l n : Nat) : Prop :=
  s.IsOverAt l n ∧ s.indentAt n = s.indentAt l ∧ s.has mark n = true

/-- All that the statement at line `l` reaches over, beside its header, stands deeper. -/
def Undivided (s : Source) (l : Nat) : Prop :=
  ∀ m, s.logicalEnd l < m → m < s.statementStop l → s.has Line.startsStatement m = true →
    s.indentAt l < s.indentAt m

variable {s : Source} {l m n outer inner depth : Nat} {part : Line → Bool} {header : ForHeader}
  {lines : List Nat}

theorem has_partOf_iff (h : s.has Line.startsStatement n = true) :
    s.has (Line.partOf part depth) n = true ↔
      depth < s.indentAt n ∨ s.indentAt n = depth ∧ s.has part n = true := by
  obtain ⟨line, hline, -⟩ := has_eq_true.1 h
  simp [has, indentAt, indent?, hline, Line.partOf]

theorem exists_nextStatement? (hm : m ≤ n) (h : s.has Line.startsStatement n = true) :
    ∃ first, s.nextStatement? m = some first ∧ first ≤ n := by
  cases hfirst : s.nextStatement? m with
  | none =>
    have hnone := findFrom?_eq_none_iff.1 hfirst n hm
    simp [h] at hnone
  | some first =>
    refine ⟨first, rfl, ?_⟩
    by_contra hlt
    have hnone := (nextStatement?_eq_some_iff.1 hfirst).2.2 n hm (by omega)
    simp [h] at hnone

/-- Inside a logical statement no other one starts. -/
theorem Linked.startsStatement_of_le_logicalEnd (h : s.Linked) (hl : l < s.size) (hlm : l < m)
    (hm : m ≤ s.logicalEnd l) : s.has Line.startsStatement m = false := by
  cases hstart : s.has Line.startsStatement m with
  | false => rfl
  | true =>
    have hon := h.continuation_of_le_logicalEnd hl hlm hm
    simp [continuation_of_startsStatement hstart] at hon

section Extent

variable (hs : s.Scanned) (hl : s.has Line.startsStatement l = true)

include hs hl

theorem partOf_of_lt_statementStop (hm : s.logicalEnd l < m) (hlt : m < s.statementStop l)
    (hstart : s.has Line.startsStatement m = true) :
    s.indentAt l < s.indentAt m ∨
      s.indentAt m = s.indentAt l ∧ s.has Line.resumesStatement m = true :=
  (has_partOf_iff hstart).1 ((hs.isExtent_of_startsStatement hl).parts m hm hlt hstart)

/-- The statement behind an extent is neither deeper nor a part of it. -/
theorem not_partOf_of_nextStatement? (hn : s.nextStatement? (s.statementStop l) = some n) :
    s.indentAt n ≤ s.indentAt l ∧
      (s.indentAt n = s.indentAt l → s.has Line.resumesStatement n = false) := by
  have hstart := (nextStatement?_eq_some_iff.1 hn).2.1
  have hnone := (hs.isExtent_of_startsStatement hl).next n hn
  rw [← Bool.not_eq_true, has_partOf_iff hstart, not_or, not_and, Bool.not_eq_true] at hnone
  exact ⟨Nat.le_of_not_lt hnone.1, hnone.2⟩

/-- An undivided statement is over where the next one behind its extent starts. -/
theorem Undivided.isOverAt_iff (h : s.Undivided l) :
    s.IsOverAt l n ↔ s.nextStatement? (s.statementStop l) = some n := by
  have hreach := (s.reaches_statementStop l).le
  constructor
  · intro hover
    have hle : s.statementStop l ≤ n := by
      by_contra hlt
      have hdeep := h n hover.behind (by omega) hover.starts
      have hshallow := hover.shallow
      omega
    obtain ⟨first, hfirst, hfirstle⟩ := exists_nextStatement? hle hover.starts
    have hfirst' := nextStatement?_eq_some_iff.1 hfirst
    have hshallow := (not_partOf_of_nextStatement? hs hl hfirst).1
    have heq : first = n := by
      by_contra hne
      have hdeep := hover.deeper first (by omega) (by omega) hfirst'.2.1
      omega
    rw [hfirst, heq]
  · intro hnext
    have hnext' := nextStatement?_eq_some_iff.1 hnext
    have hshallow := (not_partOf_of_nextStatement? hs hl hnext).1
    refine ⟨by omega, hnext'.2.1, hshallow, fun m hm hmn hstart => ?_⟩
    by_cases hin : m < s.statementStop l
    · exact h m hm hin hstart
    · have hnone := hnext'.2.2 m (by omega) hmn
      simp [hstart] at hnone

/-- No part that the extent sees goes on with an undivided statement. -/
theorem Undivided.not_goesOnWith (h : s.Undivided l) :
    ¬ s.GoesOnWith Line.resumesStatement l n := by
  rintro ⟨hover, hindent, hresumes⟩
  have hnext := (h.isOverAt_iff hs hl).1 hover
  have hnone := (not_partOf_of_nextStatement? hs hl hnext).2 hindent
  simp [hresumes] at hnone

/-- An `else` branch of an undivided statement is one that its extent does not see. -/
theorem Undivided.goesOnWith_iff (h : s.Undivided l) :
    s.GoesOnWith Line.beginsElse l n ↔ s.nextStatement? (s.statementStop l) = some n ∧
      s.indentAt n = s.indentAt l ∧ s.has Line.hidesElse n = true := by
  unfold GoesOnWith
  rw [h.isOverAt_iff hs hl]
  apply and_congr_right
  intro hnext
  apply and_congr_right
  intro hindent
  have hnone := (not_partOf_of_nextStatement? hs hl hnext).2 hindent
  unfold has at hnone ⊢
  cases hline : s.lines[n]? with
  | none => simp
  | some line =>
    rw [hline, Option.any_some] at hnone
    simp [Line.hidesElse, hnone]

/-- From the line of a statement on, other statements start behind its header. -/
theorem eq_or_logicalEnd_lt (hle : l ≤ m) (hstart : s.has Line.startsStatement m = true) :
    m = l ∨ s.logicalEnd l < m := by
  by_contra hne
  have hnone : s.has Line.startsStatement m = false :=
    hs.startsStatement_of_le_logicalEnd (lt_size_of_has hl) (by omega) (by omega)
  simp [hstart] at hnone

end Extent

/-! One loop as the body of another. -/

theorem Tight.deeper (hs : s.Scanned) (houter : s.has Line.startsStatement outer = true)
    (h : s.Tight outer inner) (hheader : s.forHeader? inner = some header) :
    s.indentAt outer < s.indentAt inner := by
  have hfor := resumesStatement_of_opensFor (opensFor_of_forHeader? hs.toLinked h.starts hheader)
  have hpart := partOf_of_lt_statementStop hs houter h.logicalEnd_lt h.inside h.starts
  simpa [hfor] using hpart

theorem Tight.undivided (hs : s.Scanned) (houter : s.has Line.startsStatement outer = true)
    (h : s.Tight outer inner) (hheader : s.forHeader? inner = some header)
    (hinner : s.Undivided inner) : s.Undivided outer := by
  intro m hm hlt hstart
  have hdeep := h.deeper hs houter hheader
  have hsole := h.sole m hm hlt hstart
  rcases eq_or_logicalEnd_lt hs h.starts hsole.1 hstart with rfl | hbehind
  · exact hdeep
  · have hdeeper := hinner m hbehind hsole.2 hstart
    omega

/-- The inner of two loops has no branch at its own indentation, seen or not: behind its extent the
outer loop is over as well. -/
theorem Tight.not_goesOnWith (hs : s.Scanned) (houter : s.has Line.startsStatement outer = true)
    (h : s.Tight outer inner) (hheader : s.forHeader? inner = some header)
    (hinner : s.Undivided inner) {mark : Line → Bool} : ¬ s.GoesOnWith mark inner n := by
  rintro ⟨hover, hindent, -⟩
  have hdeep := h.deeper hs houter hheader
  have hstop := statementStop_le_of_next hs houter h.next h.inside hheader
  have hnext := nextStatement?_eq_some_iff.1 ((hinner.isOverAt_iff hs h.starts).1 hover)
  have hbehind := h.logicalEnd_lt
  have hreach := (s.reaches_statementStop inner).le
  have hend := s.le_logicalEnd inner
  have hout : s.statementStop outer ≤ n := by
    by_contra hlt
    have hsole := h.sole n (by omega) (by omega) hnext.2.1
    omega
  have hnext' : s.nextStatement? (s.statementStop outer) = some n :=
    nextStatement?_eq_some_iff.2 ⟨hout, hnext.2.1, fun m hm hmn => hnext.2.2 m (by omega) hmn⟩
  have hshallow := (not_partOf_of_nextStatement? hs houter hnext').1
  omega

/-! Whole nests. -/

/-- Loops, each of which is the body of the one before. -/
structure Loops (s : Source) (lines : List Nat) : Prop where
  starts : ∀ l ∈ lines, s.has Line.startsStatement l = true
  loops : ∀ l ∈ lines, ∃ header, s.forHeader? l = some header
  tight : lines.IsChain s.Tight

theorem IsNest.toLoops {span : Span} (h : s.IsNest span lines) : s.Loops lines :=
  ⟨h.starts, h.loops, h.tight⟩

namespace Loops

theorem tail (h : s.Loops (l :: lines)) : s.Loops lines where
  starts k hk := h.starts k (List.mem_cons_of_mem _ hk)
  loops k hk := h.loops k (List.mem_cons_of_mem _ hk)
  tight := h.tight.tail

/-- If the innermost loop is undivided, all are. -/
theorem undivided (hs : s.Scanned) (h : s.Loops lines)
    (hlast : ∀ inner ∈ lines.getLast?, s.Undivided inner) : ∀ l ∈ lines, s.Undivided l := by
  induction lines with
  | nil => simp
  | cons outer rest ih =>
    cases rest with
    | nil => simpa using hlast
    | cons inner rest =>
      have hrest := ih h.tail (by simpa [List.getLast?_cons_cons] using hlast)
      have htight : s.Tight outer inner := (List.isChain_cons_cons.1 h.tight).1
      obtain ⟨header, hheader⟩ := h.loops inner (by simp)
      have houter := htight.undivided hs (h.starts outer (by simp)) hheader
        (hrest inner List.mem_cons_self)
      exact List.forall_mem_cons.2 ⟨houter, hrest⟩

/-- The headers of a nest lie in the outermost loop, and not in the innermost body. -/
theorem header_inside (hs : s.Scanned) (h : s.Loops lines) (hfirst : lines.head? = some outer)
    (hlast : lines.getLast? = some inner) (hl : l ∈ lines) :
    outer ≤ l ∧ s.logicalEnd l < s.statementStop outer ∧ s.logicalEnd l ≤ s.logicalEnd inner := by
  induction lines generalizing outer l with
  | nil => simp at hl
  | cons first rest ih =>
    have heq : first = outer := by simpa using hfirst
    subst heq
    have hreach := (s.reaches_statementStop first).le
    cases rest with
    | nil =>
      have hinner : first = inner := by simpa using hlast
      have hsame : l = first := by simpa using hl
      subst hinner hsame
      exact ⟨Nat.le_refl _, by omega, Nat.le_refl _⟩
    | cons next rest =>
      have hrest := fun {k : Nat} (hk : k ∈ next :: rest) =>
        ih h.tail rfl (by simpa [List.getLast?_cons_cons] using hlast) hk
      have htight : s.Tight first next := (List.isChain_cons_cons.1 h.tight).1
      have hbehind := htight.logicalEnd_lt
      have hown := s.le_logicalEnd first
      have hend := s.le_logicalEnd next
      obtain ⟨header, hheader⟩ := h.loops next (by simp)
      have hstop := statementStop_le_of_next hs (h.starts first List.mem_cons_self) htight.next
        htight.inside hheader
      rcases List.mem_cons.1 hl with heq | hmem
      · have hnext := hrest List.mem_cons_self
        rw [heq]
        exact ⟨Nat.le_refl _, by omega, by omega⟩
      · have hl := hrest hmem
        exact ⟨by omega, by omega, hl.2.2⟩

/-- Each statement of the outermost loop is a loop of the nest, or lies in the innermost body. -/
theorem mem_or_behind (hs : s.Scanned) (h : s.Loops lines) (hfirst : lines.head? = some outer)
    (hlast : lines.getLast? = some inner) (hm : outer ≤ m) (hlt : m < s.statementStop outer)
    (hstart : s.has Line.startsStatement m = true) :
    m ∈ lines ∨ s.logicalEnd inner < m ∧ m < s.statementStop inner := by
  induction lines generalizing outer with
  | nil => simp at hfirst
  | cons l rest ih =>
    have heq : l = outer := by simpa using hfirst
    subst heq
    rcases eq_or_logicalEnd_lt hs (h.starts l List.mem_cons_self) hm hstart with rfl | hbehind
    · exact .inl List.mem_cons_self
    · cases rest with
      | nil =>
        have heq : l = inner := by simpa using hlast
        subst heq
        exact .inr ⟨hbehind, hlt⟩
      | cons next rest =>
        have htight : s.Tight l next := (List.isChain_cons_cons.1 h.tight).1
        have hsole := htight.sole m hbehind hlt hstart
        rcases ih h.tail rfl (by simpa [List.getLast?_cons_cons] using hlast) hsole.1 hsole.2 with
          hmem | hbody
        · exact .inl (List.mem_cons_of_mem _ hmem)
        · exact .inr hbody

/-- Only the outermost loop can have a branch at its own indentation. -/
theorem eq_of_goesOnWith (hs : s.Scanned) (h : s.Loops lines) (hund : ∀ l ∈ lines, s.Undivided l)
    (hfirst : lines.head? = some outer) (hl : l ∈ lines) {mark : Line → Bool}
    (hgoes : s.GoesOnWith mark l n) : l = outer := by
  induction lines generalizing outer with
  | nil => simp at hfirst
  | cons first rest ih =>
    have heq : first = outer := by simpa using hfirst
    subst heq
    rcases List.mem_cons.1 hl with heq | hmem
    · exact heq
    · cases rest with
      | nil => simp at hmem
      | cons next rest =>
        have htight : s.Tight first next := (List.isChain_cons_cons.1 h.tight).1
        obtain ⟨header, hheader⟩ := h.loops next (by simp)
        have heq := ih h.tail (fun k hk => hund k (List.mem_cons_of_mem _ hk)) rfl hmem
        rw [heq] at hgoes
        exact absurd hgoes (htight.not_goesOnWith hs (h.starts first List.mem_cons_self) hheader
          (hund next (by simp)))

end Loops
end Source

/-! The loops that a directive of the tree governs. -/

namespace ClauseContext

variable {ctx : ClauseContext}

/-- The loops come from the lines that the directive governs. -/
def Associated (ctx : ClauseContext) (loops : List AssociatedLoop) : Prop :=
  loops = [] ∨ ∃ span count, ctx.region = some span ∧
    associateLoops ctx.source span count ctx.line = .ok loops

theorem region_of_loopSpan {kind : ClauseKind} {span : Span}
    (h : ctx.located (ctx.loopSpan kind) = .ok span) : ctx.region = some span := by
  have hspan := located_eq_ok.1 h
  unfold loopSpan at hspan
  split at hspan
  · next region hregion => rw [hregion, Except.ok.inj hspan]
  · simp at hspan

theorem associated_of_read {kind : ClauseKind} {argument : Option Text} {clause : Clause}
    (h : ctx.read kind argument = .ok clause) : ctx.Associated clause.loops := by
  cases fits_of_read h with
  | collapse =>
    obtain ⟨text, -, h⟩ := bind_eq_ok.1 h
    obtain ⟨count, -, h⟩ := bind_eq_ok.1 h
    obtain ⟨span, hspan, h⟩ := bind_eq_ok.1 h
    obtain ⟨loops, hloops, h⟩ := bind_eq_ok.1 h
    rw [← Except.ok.inj h]
    exact .inr ⟨span, _, region_of_loopSpan hspan, hloops⟩
  | tile =>
    obtain ⟨text, -, h⟩ := bind_eq_ok.1 h
    obtain ⟨sizes, -, h⟩ := bind_eq_ok.1 h
    by_cases hempty : sizes.isEmpty = true
    · rw [if_pos hempty] at h
      simp at h
    · rw [if_neg hempty] at h
      obtain ⟨span, hspan, h⟩ := bind_eq_ok.1 h
      obtain ⟨loops, hloops, h⟩ := bind_eq_ok.1 h
      rw [← Except.ok.inj h]
      exact .inr ⟨span, _, region_of_loopSpan hspan, hloops⟩
  | _ => exact .inl rfl

theorem associated_of_readAll {tokens : List Text} {set : ClauseSet} {kind : ClauseKind}
    {clause : Clause} (h : (ctx.readAll tokens).outcome = .ok set)
    (hget : set.get? kind = some clause) : ctx.Associated clause.loops := by
  refine forall_of_readAll (P := fun _ clause => ctx.Associated clause.loops) ?_ ?_ h kind clause
    hget
  · intro kind argument clause _ hread
    exact associated_of_read hread
  · intro kind a b m _ _ _ hm
    rcases Clause.merge?_cases hm with ⟨_, _, -, -, rfl⟩ | ⟨_, _, -, -, rfl⟩ | ⟨_, _, -, -, rfl⟩ |
      ⟨_, _, -, -, rfl⟩
    all_goals exact .inl rfl

end ClauseContext

namespace ClauseSet

variable {set : ClauseSet} {loops : List AssociatedLoop}

theorem get?_of_collapse? {count : UInt32} (h : set.collapse? = some (count, loops)) :
    set.get? .collapse = some (.collapse count loops) := by
  unfold collapse? at h
  split at h <;> simp_all

theorem get?_of_tile? {sizes : List SizeExpr} (h : set.tile? = some (sizes, loops)) :
    set.get? .tile = some (.tile sizes loops) := by
  unfold tile? at h
  split at h <;> simp_all

end ClauseSet

namespace Host.LoopNest

variable {s : Source} {d : Directive} {region : Span} {nest : LoopNest} {l : Nat}
  {header : ForHeader}

/-- The lines of the loops that a directive governs, from the outermost inwards. -/
def lines (s : Source) (d : Directive) (region : Span) : List Nat :=
  if (associated d).isEmpty then (s.firstStatement? region).toList
  else (associated d).map AssociatedLoop.line

/-- Loops that a directive names stand in one of its clauses. -/
theorem exists_clause_of_associated (h : associated d ≠ []) :
    ∃ kind clause, d.clauses.get? kind = some clause ∧ clause.loops = associated d := by
  unfold associated at h ⊢
  split
  · next hcollapse => exact ⟨_, _, ClauseSet.get?_of_collapse? hcollapse, rfl⟩
  · next hcollapse =>
    rw [hcollapse] at h
    split
    · next htile => exact ⟨_, _, ClauseSet.get?_of_tile? htile, rfl⟩
    · next htile =>
      rw [htile] at h
      exact absurd rfl h

/-- The loops that a directive names, if any, are those of the nest in its region. -/
def NamesNest (s : Source) (d : Directive) (region : Span) : Prop :=
  associated d = [] ∨ ∃ count, associateLoops s region count d.line = .ok (associated d)

theorem namesNest_of_parseDirectives {config : Config} {tree : DirectiveTree} {id : Nat}
    (h : (parseDirectives config s).outcome = .ok tree) (hget : tree.get? id = some d)
    (hregion : d.region = some region) : NamesNest s d region := by
  by_cases hnone : associated d = []
  · exact .inl hnone
  · right
    obtain ⟨kind, clause, hclause, hloops⟩ := exists_clause_of_associated hnone
    cases id with
    | zero =>
      rw [← Option.some.inj hget] at hclause
      simp [DirectiveTree.root, Directive.root] at hclause
    | succ i =>
      rw [DirectiveTree.get?_succ, Option.map_eq_some_iff] at hget
      obtain ⟨e, he, rfl⟩ := hget
      have hrecorded := recorded_of_growTree (exists_growTree_of_parseDirectives h).1
      obtain ⟨tokens, hread⟩ := (hrecorded.read he).exists_readAll
      rcases ClauseContext.associated_of_readAll hread hclause with
        hempty | ⟨span, count, hspan, hok⟩
      · exact absurd (hloops.symm.trans hempty) hnone
      · have heq : span = region := Option.some.inj (hspan.symm.trans hregion)
        rw [← heq, ← hloops]
        exact ⟨count, hok⟩

/-- The governed loops form a nest, and the directive is carried out by the lines of its outermost
and innermost loop. -/
structure Locates (s : Source) (d : Directive) (region : Span) (headers : List ForHeader)
    (outer inner : Nat) : Prop where
  isNest : s.IsNest region (lines s d region)
  read : List.Forall₂ (fun l header => s.forHeader? l = some header) (lines s d region) headers
  first : (lines s d region).head? = some outer
  last : (lines s d region).getLast? = some inner
  found : find s d region = ofLines s headers outer inner

theorem exists_locates_of_associateLoops (hs : s.Scanned) {count : Nat} (hnone : associated d ≠ [])
    (h : associateLoops s region count d.line = .ok (associated d)) :
    ∃ headers outer inner, Locates s d region headers outer inner := by
  have hlines : lines s d region = (associated d).map AssociatedLoop.line := by
    rw [lines, if_neg (by simpa using hnone)]
  have hnest := (NestedLoop.isWholeNest_nestIn hs region).toIsNest
  have hloops := forall₂_of_associateLoops hs h
  rw [← lines_of_associateLoops hs h] at hnest hloops
  obtain ⟨outermost, rest, hassoc⟩ := List.exists_cons_of_ne_nil hnone
  refine ⟨(associated d).map fun loop => ⟨loop.target, loop.iterable⟩, outermost.line,
    ((outermost :: rest).getLast (List.cons_ne_nil _ _)).line, ?_⟩
  constructor
  case isNest => rwa [hlines]
  case read =>
    rw [hlines, List.forall₂_map_right_iff]
    exact hloops.imp fun _ _ hloop => hloop.2
  case first => rw [hlines, hassoc, List.map_cons, List.head?_cons]
  case last =>
    rw [hlines, hassoc, List.getLast?_map, List.getLast?_eq_getLast_of_ne_nil, Option.map_some]
  case found =>
    unfold find
    rw [hassoc]

theorem locates_of_forHeader? (hnone : associated d = [])
    (hfirst : s.firstStatement? region = some l) (hheader : s.forHeader? l = some header) :
    Locates s d region [header] l l := by
  have hlines : lines s d region = [l] := by
    rw [lines, if_pos (by simpa using hnone), hfirst, Option.toList_some]
  constructor
  case isNest =>
    rw [hlines]
    exact ⟨by simpa using hfirst, by simpa using ⟨header, hheader⟩, .singleton l⟩
  case read => simpa [hlines] using hheader
  case first => rw [hlines, List.head?_cons]
  case last => rw [hlines, List.getLast?_singleton]
  case found =>
    unfold find
    rw [hnone]
    simp [single, hfirst, hheader]

/-- Where there is a loop at all, the governed loops are a nest. -/
theorem exists_locates (hs : s.Scanned) (hnames : NamesNest s d region)
    (hl : l ∈ lines s d region) (hheader : s.forHeader? l = some header) :
    ∃ headers outer inner, Locates s d region headers outer inner := by
  by_cases hnone : associated d = []
  · rw [lines, if_pos (by simpa using hnone), Option.mem_toList] at hl
    exact ⟨_, _, _, locates_of_forHeader? hnone hl hheader⟩
  · obtain ⟨count, hok⟩ := hnames.resolve_left hnone
    exact exists_locates_of_associateLoops hs hnone hok

theorem exists_locates_of_find (hs : s.Scanned) (hnames : NamesNest s d region)
    (h : find s d region = .ok nest) :
    ∃ headers outer inner, Locates s d region headers outer inner := by
  by_cases hnone : associated d = []
  · unfold find at h
    rw [hnone] at h
    obtain ⟨⟨header, line⟩, hsingle, -⟩ := bind_eq_ok.1 h
    unfold single at hsingle
    split at hsingle
    · simp at hsingle
    · next first hfirst =>
      split at hsingle
      · simp at hsingle
      · next hheader => exact ⟨_, _, _, locates_of_forHeader? hnone hfirst hheader⟩
  · obtain ⟨count, hok⟩ := hnames.resolve_left hnone
    exact exists_locates_of_associateLoops hs hnone hok

/-- The search for a statement that is not deeper than the loop. -/
theorem filter_findFrom?_eq_none_iff {inner : Nat} :
    (s.findFrom? (fun line => line.startsStatement && line.indent ≤ s.indentAt inner)
        (s.logicalEnd inner + 1)).filter (· < s.statementStop inner) = none ↔ s.Undivided inner := by
  have hshallow : ∀ m, s.has (fun line => line.startsStatement && line.indent ≤ s.indentAt inner) m =
      (s.has Line.startsStatement m && decide (s.indentAt m ≤ s.indentAt inner)) := by
    intro m
    unfold Source.has
    cases hline : s.lines[m]? with
    | none => rfl
    | some line =>
      have hindent : s.indentAt m = line.indent := by simp [Source.indentAt, Source.indent?, hline]
      rw [hindent, Option.any_some, Option.any_some]
  constructor
  · intro hnone m hm hlt hstart
    by_contra hle
    have hm' := hshallow m
    rw [hstart, decide_eq_true (by omega), Bool.and_true] at hm'
    cases hfind : s.findFrom? (fun line => line.startsStatement && line.indent ≤ s.indentAt inner)
        (s.logicalEnd inner + 1) with
    | none => simp [Source.findFrom?_eq_none_iff.1 hfind m hm] at hm'
    | some first =>
      rw [hfind, Option.filter_eq_none_iff] at hnone
      have hout := hnone first rfl
      have hfirst : first ≤ m := by
        by_contra hgt
        simp [(Source.findFrom?_eq_some_iff.1 hfind).2.2 m hm (by omega)] at hm'
      simp only [decide_eq_true_eq] at hout
      omega
  · intro hund
    rw [Option.filter_eq_none_iff]
    intro first hfirst
    obtain ⟨hbehind, hfound, -⟩ := Source.findFrom?_eq_some_iff.1 hfirst
    rw [hshallow, Bool.and_eq_true, decide_eq_true_eq] at hfound
    rw [decide_eq_true_eq]
    intro hlt
    have hdeep := hund first hbehind hlt hfound.1
    omega

/-- A nest is found exactly if its body starts on a line of its own and nothing goes on with its
innermost loop. -/
theorem exists_ofLines_iff {headers : List ForHeader} {outer inner : Nat} :
    (∃ nest, ofLines s headers outer inner = .ok nest) ↔
      s.logicalEnd inner + 1 < s.statementStop inner ∧ s.Undivided inner := by
  rw [← filter_findFrom?_eq_none_iff]
  simp only [ofLines]
  split
  · next hle => simp [Nat.not_lt.2 hle]
  · next hlt =>
    rw [and_iff_right (Nat.lt_of_not_le hlt)]
    split
    · next hsome => simp [hsome]
    · next hnone => simp [hnone]

/-- The statements of the loops at `lines` are the headers of the nest or move with its body. -/
structure Keeps (s : Source) (lines : List Nat) (nest : LoopNest) : Prop where
  headers : List.Forall₂ (fun l header => s.forHeader? l = some header) lines nest.headers
  first : lines.head? = some nest.span.start
  whole : nest.span.stop = s.statementStop nest.span.start
  kept : ∀ m, nest.span.start ≤ m → m < nest.span.stop → s.has Line.startsStatement m = true →
    m ∈ lines ∨ nest.body.start ≤ m ∧ m < nest.body.stop
  deeper : ∀ inner ∈ lines.getLast?, ∀ m, nest.body.start ≤ m → m < nest.body.stop →
    s.has Line.startsStatement m = true → s.indentAt inner < s.indentAt m
  undivided : ∀ l ∈ lines, s.Undivided l
  closed : ∀ l ∈ lines, ∀ n, ¬ s.GoesOnWith Line.resumesStatement l n

theorem Locates.keeps (hs : s.Scanned) {headers : List ForHeader} {outer inner : Nat}
    (h : Locates s d region headers outer inner) (hfind : find s d region = .ok nest) :
    Keeps s (lines s d region) nest := by
  have hof : ofLines s headers outer inner = .ok nest := h.found ▸ hfind
  have hnest := (ofLines_eq_ok hof).1
  have hloops := h.isNest.toLoops
  have hinner := (exists_ofLines_iff.1 ⟨nest, hof⟩).2
  have hund := hloops.undivided hs (by simpa [h.last] using hinner)
  subst hnest
  constructor
  case headers => exact h.read
  case first => exact h.first
  case whole => rfl
  case kept =>
    intro m hm hlt hstart
    exact hloops.mem_or_behind hs h.first h.last hm hlt hstart
  case deeper =>
    intro l hl m hm hlt hstart
    have heq : inner = l := Option.some.inj (h.last.symm.trans hl)
    rw [← heq]
    exact hinner m hm hlt hstart
  case undivided => exact hund
  case closed =>
    intro l hl n
    exact (hund l hl).not_goesOnWith hs (hloops.starts l hl)

end Host.LoopNest

theorem DirectiveTree.get?_eq_get_of_kind {t : DirectiveTree} {id : Nat}
    (h : (t.get id).kind ≠ .root) : t.get? id = some (t.get id) := by
  cases hget : t.get? id with
  | none => exact absurd (by rw [get, hget]; rfl) h
  | some d => rw [get_eq hget]

/-- The loops of a directive that is carried out are found in its region. -/
theorem Host.LoopNest.exists_locates_of_parse {config : Config} {source : Text}
    {tree : DirectiveTree} {id : Nat} {region : Span} {nest : LoopNest}
    (hparse : (parse config source).outcome = .ok tree) (hkind : (tree.get id).kind = .loop)
    (hregion : (tree.get id).region = some region)
    (hfind : find (.ofText config.tabWidth source) (tree.get id) region = .ok nest) :
    ∃ headers outer inner,
      Locates (.ofText config.tabWidth source) (tree.get id) region headers outer inner := by
  have hget : tree.get? id = some (tree.get id) :=
    DirectiveTree.get?_eq_get_of_kind (by simp [hkind])
  have hnames := namesNest_of_parseDirectives (mapError_eq_ok.1 hparse) hget hregion
  exact exists_locates_of_find (Source.scanned_ofText config.tabWidth source) hnames hfind

open Host

/-- Replacing a loop loses no statement of it, and a branch at its own indentation only if that is an
`else` that is not seen as one, behind the outermost loop. -/
theorem loses_only_hidden_else {config : Config} {tabWidth : Nat} {t : Text} {tree : DirectiveTree}
    {id : Nat} {d : Directive} {region : Span} {nest : LoopNest}
    (hparse : (parseDirectives config (.ofText tabWidth t)).outcome = .ok tree)
    (hget : tree.get? id = some d) (hregion : d.region = some region)
    (hfind : LoopNest.find (.ofText tabWidth t) d region = .ok nest) :
    LoopNest.Keeps (.ofText tabWidth t) (LoopNest.lines (.ofText tabWidth t) d region) nest ∧
      ((∃ l ∈ LoopNest.lines (.ofText tabWidth t) d region, ∃ n,
          (Source.ofText tabWidth t).GoesOnWith Line.beginsElse l n) ↔
        ∃ n, (Source.ofText tabWidth t).nextStatement? nest.span.stop = some n ∧
          (Source.ofText tabWidth t).indentAt n =
            (Source.ofText tabWidth t).indentAt nest.span.start ∧
          (Source.ofText tabWidth t).has Line.hidesElse n = true) := by
  have hs := Source.scanned_ofText tabWidth t
  generalize Source.ofText tabWidth t = s at *
  have hnames := LoopNest.namesNest_of_parseDirectives hparse hget hregion
  obtain ⟨headers, outer, inner, hlocates⟩ := LoopNest.exists_locates_of_find hs hnames hfind
  have hkeeps := hlocates.keeps hs hfind
  have hloops := hlocates.isNest.toLoops
  have hmem : nest.span.start ∈ LoopNest.lines s d region := List.mem_of_mem_head? hkeeps.first
  have helse := fun n => (hkeeps.undivided _ hmem).goesOnWith_iff hs (hloops.starts _ hmem) (n := n)
  refine ⟨hkeeps, ?_⟩
  rw [hkeeps.whole]
  constructor
  · rintro ⟨l, hl, n, hgoes⟩
    have heq := hloops.eq_of_goesOnWith hs hkeeps.undivided hkeeps.first hl hgoes
    rw [heq] at hgoes
    exact ⟨n, (helse n).1 hgoes⟩
  · rintro ⟨n, hn⟩
    exact ⟨_, hmem, n, (helse n).2 hn⟩

/-- A nest of two loops, and an `else` that a backslash hides. -/
def trailingText : Text := Text.unlines [
  "# acc parallel loop collapse(2)", "for i in range(n):", "    for j in range(n):",
  "        g(i, j)", "else\\", ":", "    h()"]

def trailingNest : LoopNest where
  headers := [⟨"i", "range(n)"⟩, ⟨"j", "range(n)"⟩]
  span := ⟨1, 4⟩
  body := ⟨3, 4⟩

theorem trailingText_loses_else :
    ∃ tree d, (parseDirectives {} (.ofText 8 trailingText)).outcome = .ok tree ∧
      tree.get? 2 = some d ∧ d.region = some ⟨1, 4⟩ ∧
      LoopNest.find (.ofText 8 trailingText) d ⟨1, 4⟩ = .ok trailingNest ∧
      LoopNest.Keeps (.ofText 8 trailingText) [1, 2] trailingNest ∧
      ∃ l ∈ [1, 2], ∃ n, (Source.ofText 8 trailingText).GoesOnWith Line.beginsElse l n := by
  have hcheck : ((parseDirectives {} (.ofText 8 trailingText)).outcome.toOption.any fun tree =>
      (tree.get? 2).any fun d => d.region == some ⟨1, 4⟩ &&
        (LoopNest.find (.ofText 8 trailingText) d ⟨1, 4⟩).toOption == some trailingNest &&
        LoopNest.lines (.ofText 8 trailingText) d ⟨1, 4⟩ == [1, 2]) = true := by
    decide +kernel
  obtain ⟨tree, htree, hfacts⟩ := exists_of_any hcheck
  obtain ⟨d, hd, hfacts⟩ := (Option.any_eq_true _ _).1 hfacts
  simp only [Bool.and_eq_true, beq_iff_eq] at hfacts
  obtain ⟨⟨hregion, hfind⟩, hlines⟩ := hfacts
  have hnest := eq_ok_of_toOption hfind
  have hloses := loses_only_hidden_else htree hd hregion hnest
  rw [hlines] at hloses
  have hhidden : (Source.ofText 8 trailingText).nextStatement? 4 = some 4 ∧
      (Source.ofText 8 trailingText).indentAt 4 = (Source.ofText 8 trailingText).indentAt 1 ∧
      (Source.ofText 8 trailingText).has Line.hidesElse 4 = true := by
    decide +kernel
  exact ⟨tree, d, htree, hd, hregion, hnest, hloses.1, hloses.2.2 ⟨4, hhidden⟩⟩

end Offload
