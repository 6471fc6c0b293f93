import Offload.Directive.Encoding

/-!
Encoded values read back. For each sort of value, reading gives back what was written, as long as
line numbers are below 2^64; and only such values are read. So an encoded directive can be read
again, and a directive that was read, from whatever object, is not changed by writing it.
-/
namespace Offload

/-- Values in range are read back from what is written for them, and all values read are in range. -/
structure Faithful {α β : Type} (write : α → β) (read : β → Option α) (inRange : α → Prop) :
    Prop where
  read_write : ∀ a, inRange a → read (write a) = some a
  inRange_of_read : ∀ b a, read b = some a → inRange a

namespace Faithful

variable {α β : Type} {write : α → β} {read : β → Option α} {inRange : α → Prop}

theorem read_write_iff (h : Faithful write read inRange) {a : α} :
    read (write a) = some a ↔ inRange a :=
  ⟨h.inRange_of_read _ a, h.read_write a⟩

/-- Writing does not change a value that was read. -/
theorem reread (h : Faithful write read inRange) {b : β} {a : α} (hb : read b = some a) :
    read (write a) = some a := h.read_write a (h.inRange_of_read b a hb)

theorem of_forall (h : ∀ a, read (write a) = some a) : Faithful write read fun _ => True :=
  ⟨fun a _ => h a, fun _ _ _ => trivial⟩

theorem mapM_map (h : Faithful write read inRange) {as : List α} (has : ∀ a ∈ as, inRange a) :
    (as.map write).mapM read = some as := by
  induction as with
  | nil => rfl
  | cons a as ih =>
    have hhead := h.read_write a (has a List.mem_cons_self)
    have htail := ih fun b hb => has b (List.mem_cons_of_mem a hb)
    simp [hhead, htail]

theorem inRange_of_mapM (h : Faithful write read inRange) {items : List β} {as : List α}
    (has : items.mapM read = some as) : ∀ a ∈ as, inRange a := by
  induction items generalizing as with
  | nil =>
    obtain rfl := Option.some.inj has
    simp
  | cons item items ih =>
    simp only [List.mapM_cons, Option.bind_eq_bind, Option.bind_eq_some_iff] at has
    obtain ⟨first, hfirst, rest, hrest, heq⟩ := has
    obtain rfl := Option.some.inj heq
    intro a ha
    rcases List.mem_cons.1 ha with rfl | ha
    · exact h.inRange_of_read item a hfirst
    · exact ih hrest a ha

end Faithful

namespace Json

section

variable {α : Type} {write : α → Json} {read : Json → Option α} {inRange : α → Prop}

theorem faithful_list (h : Faithful write read inRange) :
    Faithful (fun as => .array (as.map write)) (list? read) fun as => ∀ a ∈ as, inRange a where
  read_write _ has := h.mapM_map has
  inRange_of_read j as has := by
    cases j with
    | array items => exact h.inRange_of_mapM has
    | _ => simp [list?] at has

/-- A value that may be missing, where no value is written as null. -/
theorem faithful_nullable (h : Faithful write read inRange) (hnull : ∀ a, write a ≠ .null) :
    Faithful (ofOption write) (nullable? read) fun found => ∀ a ∈ found, inRange a where
  read_write found hrange := by
    cases found with
    | none => rfl
    | some a =>
      have hread := h.read_write a (hrange a rfl)
      have hvalue : nullable? read (write a) = (read (write a)).map some := by
        cases hw : write a with
        | null => exact absurd hw (hnull a)
        | _ => rfl
      rw [ofOption, hvalue, hread, Option.map_some]
  inRange_of_read j found hfound := by
    unfold nullable? at hfound
    split at hfound
    · obtain rfl := Option.some.inj hfound
      simp
    · obtain ⟨a, ha, rfl⟩ := Option.map_eq_some_iff.1 hfound
      intro b hb
      obtain rfl := Option.some.inj hb
      exact h.inRange_of_read j a ha

theorem inRange_of_optional (h : Faithful write read inRange) (hnull : ∀ a, write a ≠ .null)
    {member : Option Json} {found : Option α} (hfound : optional? read member = some found) :
    ∀ a ∈ found, inRange a := by
  cases member with
  | none =>
    obtain rfl := Option.some.inj hfound
    simp
  | some j => exact (faithful_nullable h hnull).inRange_of_read j found hfound

end

theorem texts?_ofTexts (ts : List Text) : texts? (ofTexts ts) = some ts :=
  (Faithful.of_forall fun _ => rfl : Faithful .string text? _).mapM_map fun _ _ => trivial

theorem natural?_eq_some_iff {bound n : Nat} {j : Json} :
    natural? bound j = some n ↔ j = .natural n ∧ n < bound := by
  cases j with
  | natural m =>
    simp only [natural?, Option.ite_none_right_eq_some, Option.some.injEq, natural.injEq]
    constructor
    · rintro ⟨hlt, rfl⟩
      exact ⟨rfl, hlt⟩
    · rintro ⟨rfl, hlt⟩
      exact ⟨hlt, rfl⟩
  | _ => simp [natural?]

theorem faithful_line : Faithful .natural line? (· < UInt64.size) where
  read_write _ h := natural?_eq_some_iff.2 ⟨rfl, h⟩
  inRange_of_read _ _ h := (natural?_eq_some_iff.1 h).2

theorem word64?_natural (n : UInt64) : word64? (.natural n.toNat) = some n := by
  rw [word64?, natural?_eq_some_iff.2 ⟨rfl, n.toNat_lt_size⟩, Option.map_some, UInt64.ofNat_toNat]

theorem word32?_ofWord32 (n : UInt32) : word32? (ofWord32 n) = some n := by
  rw [word32?, ofWord32, natural?_eq_some_iff.2 ⟨rfl, n.toNat_lt_size⟩, Option.map_some,
    UInt32.ofNat_toNat]

end Json

theorem NameSet.ofList_names (s : NameSet) : ofList s.names = s := by
  ext name
  exact mem_ofList

namespace IntExpr

theorem ofJson?_toJson (e : IntExpr) : ofJson? e.toJson = some e := by
  cases e with
  | literal value =>
    change ((Json.natural value.toNat).word64?).map literal = some (literal value)
    rw [Json.word64?_natural, Option.map_some]
  | expr text => rfl

theorem faithful : Faithful toJson ofJson? fun _ => True := .of_forall ofJson?_toJson

theorem toJson_ne_null (e : IntExpr) : e.toJson ≠ .null := by
  cases e <;> exact Json.noConfusion

end IntExpr

namespace SizeExpr

theorem ofJson?_toJson (e : SizeExpr) : ofJson? e.toJson = some e := by
  cases e with
  | auto => rfl
  | fixed size =>
    have hvalue : ofJson? (toJson (.fixed size)) = (IntExpr.ofJson? size.toJson).map fixed := by
      cases size <;> rfl
    rw [hvalue, IntExpr.ofJson?_toJson, Option.map_some]

theorem faithful : Faithful toJson ofJson? fun _ => True := .of_forall ofJson?_toJson

theorem toJson_ne_null (e : SizeExpr) : e.toJson ≠ .null := by
  cases e <;> exact Json.noConfusion

end SizeExpr

theorem VarList.ofJson?_toJson (v : VarList) : ofJson? v.toJson = some v := by
  have hvalue : ofJson? v.toJson = do return ⟨v.readonly, ← (Json.ofTexts v.vars).texts?⟩ := rfl
  rw [hvalue, Json.texts?_ofTexts]
  rfl

theorem ReductionOp.ofTag?_tag (op : ReductionOp) : ofTag? op.tag = some op := by
  cases op <;> rfl

theorem Reduction.ofJson?_toJson (r : Reduction) : ofJson? r.toJson = some r := by
  have hvalue : ofJson? r.toJson = do
      return ⟨← ReductionOp.ofTag? r.operator.tag, ← (Json.ofTexts r.vars).texts?⟩ := rfl
  rw [hvalue, ReductionOp.ofTag?_tag, Json.texts?_ofTexts]
  rfl

/-- The line of the loop is below 2^64. -/
def AssociatedLoop.InRange (l : AssociatedLoop) : Prop := l.line < UInt64.size

theorem AssociatedLoop.faithful : Faithful toJson ofJson? InRange where
  read_write l hl := by
    have hvalue : ofJson? l.toJson = do
        return ⟨← (Json.natural l.line).line?, l.source,
          .ofList (← (Json.ofTexts l.vars.names).texts?), l.target, l.iterable⟩ := rfl
    rw [hvalue, Json.faithful_line.read_write l.line hl, Json.texts?_ofTexts]
    change some { l with vars := .ofList l.vars.names } = some l
    rw [NameSet.ofList_names]
  inRange_of_read j l hl := by
    unfold ofJson? at hl
    simp only [Option.bind_eq_bind, Option.bind_eq_some_iff] at hl
    obtain ⟨fields, -, hl⟩ := hl
    split at hl
    · simp only [Option.bind_eq_some_iff] at hl
      obtain ⟨line, hline, source, -, names, -, target, -, iterable, -, heq⟩ := hl
      obtain rfl := Option.some.inj heq
      exact Json.faithful_line.inRange_of_read _ line hline
    · simp at hl

theorem Gang.ofJson?_toJson (g : Gang) : ofJson? g.toJson = some g := by
  have hvalue : ofJson? g.toJson = do
      return ⟨← Json.nullable? IntExpr.ofJson? (.ofOption IntExpr.toJson g.num),
        ← Json.nullable? SizeExpr.ofJson? (.ofOption SizeExpr.toJson g.static)⟩ := rfl
  have hnum := (Json.faithful_nullable IntExpr.faithful IntExpr.toJson_ne_null).read_write g.num
  have hsize := (Json.faithful_nullable SizeExpr.faithful SizeExpr.toJson_ne_null).read_write g.static
  rw [hvalue, hnum fun _ _ => trivial, hsize fun _ _ => trivial]
  rfl

theorem DefaultRule.ofTag?_tag (rule : DefaultRule) : ofTag? rule.tag = some rule := by
  cases rule <;> rfl

namespace Clause

/-- The loops that a clause speaks of. -/
def loops : Clause → List AssociatedLoop
  | .collapse _ loops | .tile _ loops => loops
  | _ => []

def InRange (c : Clause) : Prop := ∀ l ∈ c.loops, l.InRange

/-- A tag of clauses with a value is followed by the value. -/
theorem ofJson?_tagged {tag : Text} (value : Json) (hself : tag ≠ "Unconditional")
    (hflag : tag ≠ "Flag") : ofJson? (.tagged tag value) = ofTagged? tag value := by
  have hunit (other : Text) (hne : tag ≠ other) : (Json.tagged tag value).unitTag? ≠ some other := by
    intro h
    unfold Json.unitTag? Json.tagged Json.variant? at h
    split at h
    · next heq => simp at heq
    · next heq =>
      simp only [Option.some.injEq, Prod.mk.injEq] at heq
      exact hne (heq.1.trans (Option.some.inj h))
    · simp at h
  rw [ofJson?, if_neg (hunit _ hself), if_neg (hunit _ hflag)]
  rfl

/-- A clause is read by its tag, where the value behind the tag can be read. -/
theorem ofJson?_of_value {α : Type} {tag : Text} {value : Json} {x : Option α} {a : α}
    {f : α → Clause} (hx : x = some a) (htag : tag ≠ "Unconditional" ∧ tag ≠ "Flag")
    (hvalue : ofTagged? tag value = x.map f) : ofJson? (.tagged tag value) = some (f a) := by
  rw [ofJson?_tagged value htag.1 htag.2, hvalue, hx, Option.map_some]

theorem collapseOfJson?_object {loops : List AssociatedLoop} (count : UInt32)
    (h : ∀ l ∈ loops, l.InRange) :
    collapseOfJson? (.object [("loop_count", .ofWord32 count),
      ("associated_loops", .array (loops.map AssociatedLoop.toJson))]) =
        some (.collapse count loops) := by
  have hvalue : collapseOfJson? (.object [("loop_count", .ofWord32 count),
      ("associated_loops", .array (loops.map AssociatedLoop.toJson))]) = do
        return .collapse (← (Json.ofWord32 count).word32?)
          (← (loops.map AssociatedLoop.toJson).mapM AssociatedLoop.ofJson?) := rfl
  rw [hvalue, Json.word32?_ofWord32, AssociatedLoop.faithful.mapM_map h]
  rfl

theorem tileOfJson?_object {loops : List AssociatedLoop} (sizes : List SizeExpr)
    (h : ∀ l ∈ loops, l.InRange) :
    tileOfJson? (.object [("sizes", .array (sizes.map SizeExpr.toJson)),
      ("associated_loops", .array (loops.map AssociatedLoop.toJson))]) =
        some (.tile sizes loops) := by
  have hvalue : tileOfJson? (.object [("sizes", .array (sizes.map SizeExpr.toJson)),
      ("associated_loops", .array (loops.map AssociatedLoop.toJson))]) = do
        return .tile (← (sizes.map SizeExpr.toJson).mapM SizeExpr.ofJson?)
          (← (loops.map AssociatedLoop.toJson).mapM AssociatedLoop.ofJson?) := rfl
  rw [hvalue, SizeExpr.faithful.mapM_map fun _ _ => trivial, AssociatedLoop.faithful.mapM_map h]
  rfl

theorem nullable?_ofWord32 (count : Option UInt32) :
    Json.nullable? Json.word32? (.ofOption .ofWord32 count) = some count := by
  have hword := Json.faithful_nullable (.of_forall Json.word32?_ofWord32) fun _ => Json.noConfusion
  exact hword.read_write count fun _ _ => trivial

theorem ofJson?_toJson {c : Clause} (h : c.InRange) : ofJson? c.toJson = some c := by
  cases c with
  | async queue =>
    have hqueue := Json.faithful_nullable IntExpr.faithful IntExpr.toJson_ne_null
    exact ofJson?_of_value (hqueue.read_write queue fun _ _ => trivial) (by decide) rfl
  | wait queues =>
    have hqueues := Json.faithful_list IntExpr.faithful
    exact ofJson?_of_value (hqueues.read_write queues fun _ _ => trivial) (by decide) rfl
  | int value => exact ofJson?_of_value value.ofJson?_toJson (by decide) rfl
  | deviceTypes types => exact ofJson?_of_value (Json.texts?_ofTexts types) (by decide) rfl
  | condition text => exact ofJson?_of_value (x := some text) rfl (by decide) rfl
  | unconditional => rfl
  | reduction reductions =>
    have hlist := Json.faithful_list (.of_forall Reduction.ofJson?_toJson)
    exact ofJson?_of_value (hlist.read_write reductions fun _ _ => trivial) (by decide) rfl
  | vars list => exact ofJson?_of_value list.ofJson?_toJson (by decide) rfl
  | default rule => exact ofJson?_of_value rule.ofTag?_tag (by decide) rfl
  | collapse count loops =>
    exact (ofJson?_tagged _ (by decide) (by decide)).trans (collapseOfJson?_object count h)
  | tile sizes loops =>
    exact (ofJson?_tagged _ (by decide) (by decide)).trans (tileOfJson?_object sizes h)
  | gang g => exact ofJson?_of_value g.ofJson?_toJson (by decide) rfl
  | worker count => exact ofJson?_of_value (nullable?_ofWord32 count) (by decide) rfl
  | vector length => exact ofJson?_of_value (nullable?_ofWord32 length) (by decide) rfl
  | bind name => exact ofJson?_of_value (x := some name) rfl (by decide) rfl
  | flag => rfl

theorem inRange_of_map {α : Type} {f : α → Clause} {x : Option α} {c : Clause}
    (hf : ∀ a, (f a).loops = []) (h : x.map f = some c) : c.InRange := by
  obtain ⟨a, -, rfl⟩ := Option.map_eq_some_iff.1 h
  intro l hl
  simp [hf a] at hl

theorem inRange_of_ite {p : Prop} [Decidable p] {x y : Option Clause} {c : Clause}
    (hx : x = some c → c.InRange) (hy : y = some c → c.InRange) (h : (if p then x else y) = some c) :
    c.InRange := by
  by_cases hp : p
  · exact hx ((if_pos hp).symm.trans h)
  · exact hy ((if_neg hp).symm.trans h)

theorem inRange_of_collapseOfJson? {j : Json} {c : Clause} (h : collapseOfJson? j = some c) :
    c.InRange := by
  unfold collapseOfJson? at h
  simp only [Option.bind_eq_bind, Option.bind_eq_some_iff] at h
  obtain ⟨fields, -, h⟩ := h
  split at h
  · simp only [Option.bind_eq_some_iff] at h
    obtain ⟨count, -, loops, hloops, heq⟩ := h
    obtain rfl := Option.some.inj heq
    exact (Json.faithful_list AssociatedLoop.faithful).inRange_of_read _ loops hloops
  · simp at h

theorem inRange_of_tileOfJson? {j : Json} {c : Clause} (h : tileOfJson? j = some c) : c.InRange := by
  unfold tileOfJson? at h
  simp only [Option.bind_eq_bind, Option.bind_eq_some_iff] at h
  obtain ⟨fields, -, h⟩ := h
  split at h
  · simp only [Option.bind_eq_some_iff] at h
    obtain ⟨sizes, -, loops, hloops, heq⟩ := h
    obtain rfl := Option.some.inj heq
    exact (Json.faithful_list AssociatedLoop.faithful).inRange_of_read _ loops hloops
  · simp at h

/-- Only two sorts of clauses have loops; whatever else is read is in range. -/
theorem inRange_of_ofTagged? {tag : Text} {value : Json} {c : Clause}
    (h : ofTagged? tag value = some c) : c.InRange := by
  unfold ofTagged? at h
  iterate 8 refine inRange_of_ite (inRange_of_map fun _ => rfl) (fun h => ?_) h
  refine inRange_of_ite inRange_of_collapseOfJson? (fun h => ?_) h
  refine inRange_of_ite inRange_of_tileOfJson? (fun h => ?_) h
  iterate 4 refine inRange_of_ite (inRange_of_map fun _ => rfl) (fun h => ?_) h
  exact nomatch h

theorem faithful : Faithful toJson ofJson? InRange where
  read_write _ := ofJson?_toJson
  inRange_of_read j c h := by
    unfold ofJson? at h
    refine inRange_of_ite (fun h => ?_) (inRange_of_ite (fun h => ?_) fun h => ?_) h
    · obtain rfl := Option.some.inj h
      exact fun l hl => nomatch hl
    · obtain rfl := Option.some.inj h
      exact fun l hl => nomatch hl
    · split at h
      · exact inRange_of_ofTagged? h
      · exact nomatch h

end Clause

theorem ClauseKind.ofTag?_tag (kind : ClauseKind) : ofTag? kind.tag = some kind := by
  cases kind <;> rfl

namespace ClauseSet

def InRange (s : ClauseSet) : Prop := ∀ kind clause, s.get? kind = some clause → clause.InRange

theorem ofList_eq_foldl (pairs : List (ClauseKind × Clause)) :
    ofList pairs = pairs.foldl (fun s pair => s.insert pair.1 pair.2) empty := rfl

/-- Inserting what a set has for some kinds gives its values for them. -/
theorem get?_foldl_filterMap (s base : ClauseSet) (kinds : List ClauseKind) (kind : ClauseKind) :
    ((kinds.filterMap fun other => (s.get? other).map (other, ·)).foldl
        (fun t pair => t.insert pair.1 pair.2) base).get? kind =
      if kind ∈ kinds then (s.get? kind).or (base.get? kind) else base.get? kind := by
  induction kinds generalizing base with
  | nil => simp
  | cons head kinds ih =>
    cases hhead : s.get? head with
    | none =>
      rw [List.filterMap_cons_none (by simp [hhead]), ih]
      by_cases heq : kind = head
      · simp [heq, hhead]
      · simp [heq]
    | some clause =>
      rw [List.filterMap_cons_some (b := (head, clause)) (by simp [hhead]), List.foldl_cons, ih]
      by_cases heq : kind = head
      · simp [heq, hhead]
      · simp [heq]

theorem ofList_toList (s : ClauseSet) : ofList s.toList = s := by
  ext kind clause
  rw [ofList_eq_foldl, toList, get?_foldl_filterMap, if_pos (mem_all kind)]
  change (s.get? kind).or none = _ ↔ _
  rw [Option.or_none]

theorem inRange_ofList {pairs : List (ClauseKind × Clause)} (h : ∀ pair ∈ pairs, pair.2.InRange) :
    (ofList pairs).InRange := by
  have hfold (base : ClauseSet) (hbase : base.InRange) :
      (pairs.foldl (fun t pair => t.insert pair.1 pair.2) base).InRange := by
    induction pairs generalizing base with
    | nil => exact hbase
    | cons pair pairs ih =>
      refine ih (fun other hother => h other (List.mem_cons_of_mem pair hother)) _ ?_
      intro kind clause hclause
      rw [get?_insert] at hclause
      split at hclause
      · obtain rfl := Option.some.inj hclause
        exact h pair List.mem_cons_self
      · exact hbase kind clause hclause
  rw [ofList_eq_foldl]
  exact hfold empty fun kind clause hclause => nomatch hclause

theorem faithful_member : Faithful (fun (pair : ClauseKind × Clause) => (pair.1.tag, pair.2.toJson))
    memberOfJson? fun pair => pair.2.InRange where
  read_write pair hpair := by
    rw [memberOfJson?, ClauseKind.ofTag?_tag, Clause.ofJson?_toJson hpair]
    rfl
  inRange_of_read member pair hpair := by
    simp only [memberOfJson?, Option.bind_eq_bind, Option.bind_eq_some_iff] at hpair
    obtain ⟨kind, -, clause, hclause, heq⟩ := hpair
    obtain rfl := Option.some.inj heq
    exact Clause.faithful.inRange_of_read _ clause hclause

theorem faithful : Faithful toJson ofJson? InRange where
  read_write s hs := by
    have hvalue : ofJson? s.toJson = do
        return .ofList (← (s.toList.map fun pair => (pair.1.tag, pair.2.toJson)).mapM
          memberOfJson?) := rfl
    have hmembers (pair) (hpair : pair ∈ s.toList) : pair.2.InRange :=
      hs pair.1 pair.2 (mem_toList.1 hpair)
    rw [hvalue, faithful_member.mapM_map hmembers]
    exact congrArg some s.ofList_toList
  inRange_of_read j s hs := by
    unfold ofJson? at hs
    simp only [Option.bind_eq_bind, Option.bind_eq_some_iff] at hs
    obtain ⟨fields, -, hs⟩ := hs
    split at hs
    · simp only [Option.bind_eq_some_iff] at hs
      obtain ⟨pairs, hpairs, heq⟩ := hs
      obtain rfl := Option.some.inj heq
      exact inRange_ofList (faithful_member.inRange_of_mapM hpairs)
    · exact nomatch hs

end ClauseSet

namespace Span

def InRange (s : Span) : Prop := s.start < UInt64.size ∧ s.stop < UInt64.size

theorem faithful : Faithful toJson ofJson? InRange where
  read_write s hs := by
    have hvalue : ofJson? s.toJson = do
        return ⟨← (Json.natural s.start).line?, ← (Json.natural s.stop).line?⟩ := rfl
    rw [hvalue, Json.faithful_line.read_write s.start hs.1, Json.faithful_line.read_write s.stop hs.2]
    rfl
  inRange_of_read j s hs := by
    unfold ofJson? at hs
    simp only [Option.bind_eq_bind, Option.bind_eq_some_iff] at hs
    obtain ⟨fields, -, hs⟩ := hs
    split at hs
    · simp only [Option.bind_eq_some_iff] at hs
      obtain ⟨start, hstart, stop, hstop, heq⟩ := hs
      obtain rfl := Option.some.inj heq
      exact ⟨Json.faithful_line.inRange_of_read _ start hstart,
        Json.faithful_line.inRange_of_read _ stop hstop⟩
    · exact nomatch hs

end Span

theorem DirectiveArgument.ofJson?_toJson (a : DirectiveArgument) : ofJson? a.toJson = some a := by
  cases a with
  | vars items =>
    change ((Json.ofTexts items).texts?).map vars = some (vars items)
    rw [Json.texts?_ofTexts, Option.map_some]
  | queues items =>
    change ((Json.ofTexts items).texts?).map queues = some (queues items)
    rw [Json.texts?_ofTexts, Option.map_some]
  | name text => rfl

theorem DirectiveArgument.toJson_ne_null (a : DirectiveArgument) : a.toJson ≠ .null := by
  cases a <;> exact Json.noConfusion

theorem DirectiveKind.ofTag?_tag (kind : DirectiveKind) : ofTag? kind.tag = some kind := by
  cases kind <;> rfl

namespace Json

/-- The member is there by its name; null may be left out. -/
def HasMember (members : List (Text × Json)) (name : Text) (value : Json) : Prop :=
  members.lookup name = some value ∨ value = .null ∧ members.lookup name = none

variable {members : List (Text × Json)} {name : Text} {value : Json}

theorem HasMember.lookup (h : HasMember members name value) (hnull : value ≠ .null) :
    members.lookup name = some value := h.resolve_right fun hnone => hnull hnone.1

theorem HasMember.optional? {α : Type} (h : HasMember members name value) (read : Json → Option α) :
    optional? read (members.lookup name) = nullable? read value := by
  rcases h with hsome | ⟨hnull, hnone⟩
  · rw [hsome]
    rfl
  · rw [hnone, hnull]
    rfl

end Json

namespace Directive

/-- All line numbers of the directive are below 2^64. -/
structure InRange (d : Directive) : Prop where
  line : d.line < UInt64.size
  region : ∀ span ∈ d.region, span.InRange
  clauses : d.clauses.InRange

/-- Which members an object has to have for a directive to be read from it. Their order does not
matter, nor do other members. -/
def WrittenIn (d : Directive) (members : List (Text × Json)) : Prop :=
  ∀ member ∈ d.members, Json.HasMember members member.1 member.2

theorem writtenIn_members (d : Directive) : d.WrittenIn d.members := by
  unfold WrittenIn members
  simp only [List.forall_mem_cons]
  exact ⟨.inl rfl, .inl rfl, .inl rfl, .inl rfl, .inl rfl, .inl rfl, .inl rfl, List.forall_mem_nil _⟩

theorem ofJson?_of_fields {j kind line clauses fused delimited : Json} {region argument : Option Json}
    (h : j.fields? ["kind", "line", "region", "clauses", "argument", "hybrid", "delimited"] =
      some [some kind, some line, region, some clauses, argument, some fused, some delimited]) :
    ofJson? j = do
      return {
        kind := ← DirectiveKind.ofTag? (← kind.unitTag?)
        line := ← line.line?
        region := ← Json.optional? Span.ofJson? region
        clauses := ← ClauseSet.ofJson? clauses
        argument := ← Json.optional? DirectiveArgument.ofJson? argument
        fused := ← fused.bool?
        delimited := ← delimited.bool? } := by
  rw [ofJson?, h]
  rfl

theorem ofJson?_of_writtenIn {d : Directive} {members : List (Text × Json)} (hd : d.InRange)
    (h : d.WrittenIn members) : ofJson? (.object members) = some d := by
  simp only [WrittenIn, Directive.members, List.forall_mem_cons] at h
  obtain ⟨hkind, hline, hregion, hclauses, hargument, hfused, hdelimited, -⟩ := h
  have hfields : (Json.object members).fields?
      ["kind", "line", "region", "clauses", "argument", "hybrid", "delimited"] =
        some [some (.string d.kind.tag), some (.natural d.line), members.lookup "region".toList,
          some d.clauses.toJson, members.lookup "argument".toList, some (.bool d.fused),
          some (.bool d.delimited)] := by
    rw [← hkind.lookup Json.noConfusion, ← hline.lookup Json.noConfusion,
      ← hclauses.lookup Json.noConfusion, ← hfused.lookup Json.noConfusion,
      ← hdelimited.lookup Json.noConfusion]
    rfl
  have hspan := Json.faithful_nullable Span.faithful fun _ => Json.noConfusion
  have hwords := Json.faithful_nullable (.of_forall DirectiveArgument.ofJson?_toJson)
    DirectiveArgument.toJson_ne_null
  rw [ofJson?_of_fields hfields, hregion.optional?, hargument.optional?,
    Json.faithful_line.read_write d.line hd.line, hspan.read_write d.region hd.region,
    ClauseSet.faithful.read_write d.clauses hd.clauses,
    hwords.read_write d.argument fun _ _ => trivial]
  change (do let kind ← DirectiveKind.ofTag? d.kind.tag; return { d with kind }) = some d
  rw [DirectiveKind.ofTag?_tag]
  rfl

theorem faithful : Faithful toJson ofJson? InRange where
  read_write d hd := ofJson?_of_writtenIn hd d.writtenIn_members
  inRange_of_read j d hd := by
    unfold ofJson? at hd
    simp only [Option.bind_eq_bind, Option.bind_eq_some_iff] at hd
    obtain ⟨fields, -, hd⟩ := hd
    split at hd
    · simp only [Option.bind_eq_some_iff] at hd
      obtain ⟨tag, -, kind, -, line, hline, region, hregion, clauses, hclauses, argument, -, fused, -,
        delimited, -, heq⟩ := hd
      obtain rfl := Option.some.inj heq
      exact {
        line := Json.faithful_line.inRange_of_read _ line hline
        region := Json.inRange_of_optional Span.faithful (fun _ => Json.noConfusion) hregion
        clauses := ClauseSet.faithful.inRange_of_read _ clauses hclauses }
    · exact nomatch hd

/-- A directive reads back from what is written for it if and only if its line numbers are below
2^64, and then from every object with the same members. A directive that was read, from whatever
value, is not changed by writing it. -/
theorem toJson_reads_back :
    (∀ d : Directive, ofJson? d.toJson = some d ↔ d.InRange) ∧
    (∀ (d : Directive) (members : List (Text × Json)), d.InRange → d.WrittenIn members →
      ofJson? (.object members) = some d) ∧
    ∀ (j : Json) (d : Directive), ofJson? j = some d → ofJson? d.toJson = some d :=
  ⟨fun _ => faithful.read_write_iff, fun _ _ => ofJson?_of_writtenIn, fun _ _ => faithful.reread⟩

/-- A directive with members in another order, one of them unknown, without its optional members, and
with a set of names that is neither sorted nor free of duplicates. -/
def looseJson : Json := .object [
  ("note", .array []),
  ("clauses", .object [("clauses", .object [
    ("Gang", .tagged "Gang" (.object [])),
    ("Collapse", .tagged "Collapse" (.object [
      ("loop_count", .natural 1),
      ("associated_loops", .array [.object [
        ("line", .natural 4),
        ("source", .string "for i in x:\n    f(i)"),
        ("variables", .ofTexts ["x", "i", "f", "x"]),
        ("target", .string "i"),
        ("iterable", .string "x")]])]))])]),
  ("delimited", .bool false),
  ("hybrid", .bool true),
  ("line", .natural 3),
  ("kind", .string "Loop")]

def looseDirective : Directive where
  kind := .loop
  line := 3
  clauses := .ofList [
    (.gang, .gang {}),
    (.collapse, .collapse 1 [{
      line := 4
      source := "for i in x:\n    f(i)"
      vars := .ofList ["f", "i", "x"]
      target := "i"
      iterable := "x" }])]
  fused := true

theorem looseJson_reads_back :
    ofJson? looseJson = some looseDirective ∧
      ofJson? looseDirective.toJson = some looseDirective ∧ looseDirective.InRange := by
  have hread : ofJson? looseJson = some looseDirective := by rfl
  obtain ⟨hrange, -, hreread⟩ := toJson_reads_back
  have hagain := hreread looseJson looseDirective hread
  exact ⟨hread, hagain, (hrange looseDirective).1 hagain⟩

end Directive

end Offload
