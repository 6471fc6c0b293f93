import Offload.Proofs.Bracket

/-!
Arguments written back. What an argument has been read to is written as a text that is read to the
same value: numerals, expressions, sizes, reductions, and the items of `gang`.
-/
namespace Offload

open Outcome

/-! Numerals. -/

namespace Text

theorem isBlank_of_isDigit {c : Char} (h : isDigit c = true) : isBlank c = false := by
  have hbounds : 48 ≤ c.toNat ∧ c.toNat ≤ 57 := by
    simpa [isDigit, Char.le_def, UInt32.le_iff_toNat_le] using h
  rw [Bool.eq_false_iff]
  simp only [isBlank, ne_eq, Bool.or_eq_true, Bool.and_eq_true, decide_eq_true_eq, beq_iff_eq]
  omega

theorem ne_of_isDigit {c d : Char} (hc : isDigit c = true) (hd : isDigit d = false) : c ≠ d := by
  intro heq
  rw [heq, hd] at hc
  simp at hc

theorem plain_of_isDigit {c : Char} (h : isDigit c = true) :
    isOpening c = false ∧ isClosing c = false := by
  unfold isOpening isClosing
  simp [ne_of_isDigit h (d := '(') (by decide), ne_of_isDigit h (d := '[') (by decide),
    ne_of_isDigit h (d := '\x7b') (by decide), ne_of_isDigit h (d := ')') (by decide),
    ne_of_isDigit h (d := ']') (by decide), ne_of_isDigit h (d := '\x7d') (by decide)]

theorem stripWhile_of_forall {p : Char → Bool} {t : Text} (h : ∀ c ∈ t, p c = false) :
    stripWhile p t = t := by
  cases t with
  | nil => rfl
  | cons c cs =>
    have hstrip := stripWhile_append (List.cons_ne_nil c cs) h [] []
    rw [List.nil_append, List.append_nil] at hstrip
    rw [hstrip]
    exact List.append_nil (c :: cs)

theorem isDigit_of_mem_decimal {n : Nat} {c : Char} (h : c ∈ decimal n) : isDigit c = true := by
  have hdigit := Nat.isDigit_of_mem_toDigits (by decide) (by decide) h
  simpa [Char.isDigit, isDigit, Char.le_def] using hdigit

theorem digitsValue_decimal (n : Nat) : digitsValue (decimal n) = n :=
  Nat.ofDigitChars_toDigits (by decide) (by decide)

theorem decimal_ne_nil (n : Nat) : decimal n ≠ [] := Nat.toDigits_ne_nil

theorem not_mem_decimal {c : Char} (hc : isDigit c = false) (n : Nat) : c ∉ decimal n :=
  fun hmem => ne_of_isDigit (isDigit_of_mem_decimal hmem) hc rfl

theorem numeral?_decimal (n : Nat) : numeral? (decimal n) = some n := by
  have hdigits : ofDigits? (decimal n) = some n := by
    have hall : (decimal n).all isDigit = true :=
      List.all_eq_true.2 fun c hc => isDigit_of_mem_decimal hc
    simp [ofDigits?, hall, decimal_ne_nil, digitsValue_decimal]
  unfold numeral?
  split
  · next digits heq =>
    have hplus : '+' ∈ decimal n := by
      rw [heq]
      exact List.mem_cons_self
    exact absurd hplus (not_mem_decimal (by decide) n)
  · exact hdigits

theorem word64?_decimal (n : UInt64) : word64? (decimal n.toNat) = some n := by
  have hlt : n.toNat < UInt64.size := n.toNat_lt_size
  rw [word64?, numeral?_decimal]
  simp [hlt]

theorem word32?_decimal (n : UInt32) : word32? (decimal n.toNat) = some n := by
  have hlt : n.toNat < UInt32.size := n.toNat_lt_size
  rw [word32?, numeral?_decimal]
  simp [hlt]

theorem isItem_decimal (n : Nat) : IsItem (decimal n) where
  nonempty := decimal_ne_nil n
  trimmed := stripWhile_of_forall fun _ hc => isBlank_of_isDigit (isDigit_of_mem_decimal hc)
  nested := nested_of_plain fun _ hc => plain_of_isDigit (isDigit_of_mem_decimal hc)
  whole := whole_of_not_mem (not_mem_decimal (by decide) n)

end Text

/-- The items of a list, of which there is at least one. -/
structure AreItems (items : List Text) : Prop where
  ne_nil : items ≠ []
  isItem : ∀ item ∈ items, IsItem item

theorem AreItems.append {items more : List Text} (h : AreItems items) (h' : AreItems more) :
    AreItems (items ++ more) where
  ne_nil := by simp [h.ne_nil]
  isItem := List.forall_mem_append.2 ⟨h.isItem, h'.isItem⟩

/-! Single arguments. -/

namespace Argument

open Text

variable {clause : ClauseKind} {t : Text}

theorem present_eq_ok {argument : Option Text} {text : Text} :
    present clause argument = .ok text ↔
      ∃ a, argument = some a ∧ text = trim a ∧ text ≠ [] := by
  unfold present
  cases argument with
  | none => simp
  | some a =>
    cases ha : trim a with
    | nil => simp [ha]
    | cons c cs =>
      simp only [Option.map_some, ha, Except.ok.injEq, Option.some.injEq, exists_eq_left']
      constructor
      · intro h
        exact ⟨h.symm, by simp [← h]⟩
      · intro h
        exact h.1.symm

theorem names_eq_ok {vars : List Text} :
    names clause t = .ok vars ↔ argumentItems t = vars ∧ vars ≠ [] := by
  unfold names
  cases hitems : argumentItems t with
  | nil =>
    simp only [reduceCtorEq, false_iff, not_and, ne_eq, not_not]
    exact Eq.symm
  | cons first more =>
    simp only [Except.ok.injEq]
    constructor
    · intro h
      exact ⟨h, by simp [← h]⟩
    · intro h
      exact h.1

theorem areItems_of_names {vars : List Text} (ht : Nested t) (h : names clause t = .ok vars) :
    AreItems vars := by
  obtain ⟨rfl, hne⟩ := names_eq_ok.1 h
  exact ⟨hne, fun item hitem => isItem_of_mem ht hitem⟩

theorem present_join {items : List Text} (h : AreItems items) :
    present clause (some (join ", " items)) = .ok (join ", " items) :=
  present_eq_ok.2 ⟨_, rfl, (trim_join_items h.isItem).symm, join_items_ne_nil h.ne_nil h.isItem⟩

theorem names_join {items : List Text} (h : AreItems items) :
    names clause (join ", " items) = .ok items :=
  names_eq_ok.2 ⟨argumentItems_join_items h.isItem, h.ne_nil⟩

theorem int_trim (t : Text) : int (trim t) = int t := by
  rw [int, int, trim_trim]

theorem render_int_cases (t : Text) :
    (∃ n : UInt64, int t = .literal n ∧ (int t).render = decimal n.toNat) ∨
      (int t).render = trim t := by
  unfold int
  dsimp only
  cases word64? (trim t) with
  | some n => exact .inl ⟨n, rfl, rfl⟩
  | none => exact .inr rfl

/-- An expression that has been written back is read as before. -/
theorem int_render (t : Text) : int (int t).render = int t := by
  rcases render_int_cases t with ⟨n, hint, hrender⟩ | hrender
  · rw [hrender, hint, int, (isItem_decimal n.toNat).trimmed, word64?_decimal]
  · rw [hrender, int_trim]

theorem trim_render_int (t : Text) : trim (int t).render = (int t).render := by
  rcases render_int_cases t with ⟨n, -, hrender⟩ | hrender
  · rw [hrender, (isItem_decimal n.toNat).trimmed]
  · rw [hrender, trim_trim]

theorem nested_render_int (h : Nested t) : Nested (int t).render := by
  rcases render_int_cases t with ⟨n, -, hrender⟩ | hrender
  · rw [hrender]
    exact (isItem_decimal n.toNat).nested
  · rwa [hrender, nested_trim]

theorem whole_render_int {separator : Char} (hdigit : isDigit separator = false)
    (hblank : isBlank separator = false) (h : Whole separator 0 t) :
    Whole separator 0 (int t).render := by
  rcases render_int_cases t with ⟨n, -, hrender⟩ | hrender
  · rw [hrender]
    exact whole_of_not_mem (not_mem_decimal hdigit n.toNat)
  · rwa [hrender, whole_trim hblank]

theorem render_int_ne_nil (h : trim t ≠ []) : (int t).render ≠ [] := by
  rcases render_int_cases t with ⟨n, -, hrender⟩ | hrender
  · rw [hrender]
    exact decimal_ne_nil n.toNat
  · rwa [hrender]

theorem isItem_render_int (h : IsItem t) : IsItem (int t).render where
  nonempty := render_int_ne_nil (by rw [h.trimmed]; exact h.nonempty)
  trimmed := trim_render_int t
  nested := nested_render_int h.nested
  whole := whole_render_int (by decide) (by decide) h.whole

theorem positive_eq_ok {e : IntExpr} (h : positive clause t = .ok e) : e = int t := by
  simp only [positive] at h
  split at h
  · simp at h
  · exact (Except.ok.inj h).symm

theorem positive_render_int (t : Text) : positive clause (int t).render = positive clause t := by
  rw [positive, positive, int_render]

theorem positive_trim (t : Text) : positive clause (trim t) = positive clause t := by
  rw [positive, positive, int_trim]

theorem count_decimal {n : UInt32} (h : count clause t = .ok n) :
    count clause (decimal n.toNat) = .ok n := by
  have hne : n ≠ 0 := by
    intro hzero
    have hpos := one_le_count h
    simp [hzero] at hpos
  rw [count, (isItem_decimal n.toNat).trimmed, word32?_decimal]
  simp [hne]

/-! Sizes. -/

theorem size_trim (t : Text) : size clause (trim t) = size clause t := by
  rw [size, size, trim_trim, positive_trim]

theorem size_eq_ok {s : SizeExpr} (h : size clause t = .ok s) :
    (s = .auto ∧ s.render = "*") ∨ (trim t ≠ "*" ∧ positive clause t = .ok (int t) ∧
      s.render = (int t).render) := by
  unfold size at h
  split at h
  · obtain rfl := Except.ok.inj h
    exact .inl ⟨rfl, rfl⟩
  · next hne =>
    obtain ⟨e, he, rfl⟩ := map_eq_ok.1 h
    obtain rfl := positive_eq_ok he
    exact .inr ⟨hne, he, rfl⟩

theorem size_render {s : SizeExpr} (h : size clause t = .ok s) : size clause s.render = .ok s := by
  rcases size_eq_ok h with ⟨rfl, -⟩ | ⟨hne, -, hrender⟩
  · rfl
  · have hne' : (int t).render ≠ "*" := by
      rcases render_int_cases t with ⟨n, -, hdecimal⟩ | htrim
      · rw [hdecimal]
        intro hstar
        have hmem : '*' ∈ decimal n.toNat := by rw [hstar]; decide
        exact not_mem_decimal (by decide) _ hmem
      · rwa [htrim]
    rw [size, if_neg hne] at h
    rw [hrender, size, trim_render_int, if_neg hne', positive_render_int, h]

theorem nested_render_size {s : SizeExpr} (h : size clause t = .ok s) (ht : Nested t) :
    Nested s.render := by
  rcases size_eq_ok h with ⟨-, hrender⟩ | ⟨-, -, hrender⟩
  · rw [hrender]
    decide
  · rw [hrender]
    exact nested_render_int ht

theorem trim_render_size {s : SizeExpr} (h : size clause t = .ok s) : trim s.render = s.render := by
  rcases size_eq_ok h with ⟨-, hrender⟩ | ⟨-, -, hrender⟩
  · rw [hrender]
    decide
  · rw [hrender, trim_render_int]

theorem whole_render_size {separator : Char} {s : SizeExpr} (h : size clause t = .ok s)
    (hdigit : isDigit separator = false) (hblank : isBlank separator = false)
    (hstar : separator ≠ '*') (ht : Whole separator 0 t) : Whole separator 0 s.render := by
  rcases size_eq_ok h with ⟨-, hrender⟩ | ⟨-, -, hrender⟩
  · rw [hrender]
    exact whole_of_not_mem (by simpa using hstar)
  · rw [hrender]
    exact whole_render_int hdigit hblank ht

theorem isItem_render_size {s : SizeExpr} (h : size clause t = .ok s) (ht : IsItem t) :
    IsItem s.render where
  nonempty := by
    rcases size_eq_ok h with ⟨-, hrender⟩ | ⟨-, -, hrender⟩
    · simp [hrender]
    · rw [hrender]
      exact (isItem_render_int ht).nonempty
  trimmed := trim_render_size h
  nested := nested_render_size h ht.nested
  whole := whole_render_size h (by decide) (by decide) (by decide) ht.whole

/-! The modifier of `copyin`. -/

/-- The argument starts with the modifier. -/
def Marked (t : Text) : Prop := ∃ before rest, t = before ++ ':' :: rest ∧ trim before = "readonly"

theorem mem_of_trim {before : Text} (h : trim before = "readonly") {c : Char} (hc : c ∈ before) :
    isBlank c = true ∨ c ∈ "readonly".toList := by
  obtain ⟨a, b, hbefore, ha, hb⟩ := exists_trim before
  rw [hbefore, h, List.mem_append, List.mem_append] at hc
  rcases hc with (hc | hc) | hc
  · exact .inl (List.all_eq_true.1 ha c hc)
  · exact .inr hc
  · exact .inl (List.all_eq_true.1 hb c hc)

theorem not_mem_of_trim {before : Text} (h : trim before = "readonly") {c : Char}
    (hblank : isBlank c = false) (hc : c ∉ "readonly".toList) : c ∉ before := by
  intro hmem
  rcases mem_of_trim h hmem with hb | hb
  · simp [hb] at hblank
  · exact hc hb

theorem plain_of_trim {before : Text} (h : trim before = "readonly") :
    ∀ c ∈ before, isOpening c = false ∧ isClosing c = false := by
  intro c hc
  rcases mem_of_trim h hc with hb | hb
  · exact ⟨isOpening_of_isBlank hb, isClosing_of_isBlank hb⟩
  · exact plain_of_all (by decide) c hb

theorem takeModifier_of_marked {before rest : Text} (h : trim before = "readonly") :
    takeModifier "readonly" (before ++ ':' :: rest) = (true, trim rest) := by
  have hwhole : Whole ':' 0 before :=
    whole_of_not_mem (not_mem_of_trim h (by decide) (by decide))
  have hcut : cutAtDepth? ":" 0 (before ++ ':' :: rest) = some (before, rest) :=
    cutAtDepth?_eq_some (by decide) (by decide) hwhole (depthAfter_of_plain (plain_of_trim h) 0)
  rw [takeModifier, hcut]
  simp [h]

theorem takeModifier_of_not_marked (h : ¬ Marked t) : takeModifier "readonly" t = (false, t) := by
  unfold takeModifier
  split
  · next before rest hcut =>
    have hbefore : trim before ≠ "readonly" := fun hname =>
      h ⟨before, rest, eq_of_cutAtDepth? hcut, hname⟩
    rw [if_neg hbefore]
  · rfl

theorem Marked.append (h : Marked t) (u : Text) : Marked (t ++ u) := by
  obtain ⟨before, rest, rfl, hname⟩ := h
  exact ⟨before, rest ++ u, by simp, hname⟩

theorem Marked.of_append_comma {u : Text} (h : Marked (t ++ ',' :: u)) : Marked t := by
  obtain ⟨before, rest, heq, hname⟩ := h
  have hcomma : ',' ∉ before := not_mem_of_trim hname (by decide) (by decide)
  rcases List.append_eq_append_iff.1 heq with ⟨between, rfl, hrest⟩ | ⟨between, rfl, hrest⟩
  · -- The comma would stand before the colon.
    cases between with
    | nil => simp at hrest
    | cons c cs =>
      obtain rfl := (List.cons.inj hrest).1
      exact absurd (by simp) hcomma
  · cases between with
    | nil => simp at hrest
    | cons c cs =>
      obtain rfl := (List.cons.inj hrest).1
      exact ⟨before, cs, rfl, hname⟩

theorem trim_append_cons {c : Char} (hc : isBlank c = false) (t u : Text) :
    trim (t ++ c :: u) = trimStart t ++ c :: trimEnd u := by
  rw [trim_eq, trimStart, dropWhile_append_of_head hc, ← trimStart, trimEnd_append_cons hc]

theorem Marked.trimmed (h : Marked t) : Marked (trim t) := by
  obtain ⟨before, rest, rfl, hname⟩ := h
  refine ⟨trimStart before, trimEnd rest, trim_append_cons (by decide) before rest, ?_⟩
  rw [trim_eq, trimStart, trimStart, List.dropWhile_idempotent]
  exact hname

theorem Marked.of_trim (h : Marked (trim t)) : Marked t := by
  obtain ⟨before, rest, heq, hname⟩ := h
  obtain ⟨a, b, ht, ha, -⟩ := exists_trim t
  refine ⟨a ++ before, rest ++ b, ?_, ?_⟩
  · conv_lhs => rw [ht]
    rw [heq]
    simp
  · rw [trim_of_blank_append ha, hname]

/-! Reductions. -/

theorem argumentItems_cons_blank (t : Text) : argumentItems (' ' :: t) = argumentItems t := by
  rw [← argumentItems_trim (' ' :: t), trim_cons_space, argumentItems_trim]

theorem symbol_of_ofSymbol? {symbol : Text} {op : ReductionOp}
    (h : ReductionOp.ofSymbol? symbol = some op) : symbol = op.symbol := by
  have hfound := List.find?_some h
  rw [beq_iff_eq] at hfound
  exact hfound.symm

theorem ofSymbol?_symbol (op : ReductionOp) : ReductionOp.ofSymbol? (trim op.symbol) = some op := by
  cases op <;> decide

theorem nested_symbol (op : ReductionOp) : Nested (op.symbol ++ ": ") := by
  cases op <;> decide

theorem plain_symbol (op : ReductionOp) :
    ∀ c ∈ op.symbol, isOpening c = false ∧ isClosing c = false :=
  plain_of_all (by cases op <;> decide)

theorem cut?_symbol (op : ReductionOp) (vars : Text) :
    cut? ":" (op.symbol ++ ": " ++ vars) = some (op.symbol, ' ' :: vars) := by
  cases op <;> rfl

theorem areItems_of_reduction {r : Reduction} (ht : Nested t) (h : reduction t = .ok r) :
    AreItems r.vars := by
  unfold reduction at h
  split at h
  · simp at h
  · next symbol vars hcut =>
    split at h
    · simp at h
    · next op hop =>
      split at h
      · simp at h
      · next hitems =>
        obtain rfl := Except.ok.inj h
        -- The operator has no brackets, so the variables are nested as the whole is.
        have hsymbol : Nested symbol := by
          rw [← nested_trim, symbol_of_ofSymbol? hop]
          exact nested_of_plain (plain_symbol op)
        have hvars : Nested vars := by
          have hcolon : Nested ":".toList := by decide
          rw [(cut?_eq_some_iff.1 hcut).eq, List.append_assoc, hsymbol.append_iff] at ht
          exact hcolon.append_iff.1 ht
        exact ⟨hitems, fun item hitem => isItem_of_mem hvars hitem⟩

theorem reduction_render {r : Reduction} (h : AreItems r.vars) : reduction r.render = .ok r := by
  have hitems : argumentItems (' ' :: join ", " r.vars) = r.vars := by
    rw [argumentItems_cons_blank, argumentItems_join_items h.isItem]
  rw [reduction, Reduction.render, cut?_symbol]
  dsimp only
  rw [ofSymbol?_symbol]
  dsimp only
  rw [hitems]
  split
  · next hnil => exact absurd hnil h.ne_nil
  · rfl

theorem nested_render_reduction {r : Reduction} (h : AreItems r.vars) : Nested r.render := by
  rw [Reduction.render, (nested_symbol r.operator).append_iff]
  exact nested_join fun v hv => (h.isItem v hv).nested

theorem present_render_reduction {r : Reduction} (h : AreItems r.vars) :
    present clause (some r.render) = .ok r.render := by
  have hsymbol : r.operator.symbol ≠ [] ∧ trim r.operator.symbol = r.operator.symbol := by
    cases r.operator <;> decide
  have htrim : trim r.render = r.render :=
    trim_append_append hsymbol.1 (join_items_ne_nil h.ne_nil h.isItem) hsymbol.2
      (trim_join_items h.isItem) _
  refine present_eq_ok.2 ⟨_, rfl, htrim.symm, ?_⟩
  simp [Reduction.render, hsymbol.1]

/-! Items of `gang`. -/

/-- The value of an item, which may have a label before it. -/
structure IsValue (v : Text) : Prop where
  nested : Nested v
  whole : Whole ',' 0 v
  unlabelled : Whole ':' 0 v

/-- An item sets one of the two fields. -/
theorem gangItem_eq_ok {g g' : Gang} {item : Text} (hitem : IsItem item)
    (h : gangItem g item = .ok g') :
    ∃ v, IsValue v ∧ ((∃ n, positive .gang v = .ok n ∧ g' = { g with num := some n }) ∨
      ∃ s, size .gang v = .ok s ∧ g' = { g with static := some s }) := by
  have hvalues : ∀ piece ∈ item.splitOutside ':', IsValue piece := by
    obtain ⟨first, more, hsplit⟩ := exists_splitAtDepth ':' 0 item
    obtain ⟨hfirst, hmore⟩ := nested_of_splitAtDepth hitem.nested hsplit
    obtain ⟨hfirst', hmore'⟩ := hitem.whole.of_splitAtDepth hsplit
    obtain ⟨hfirst'', hmore''⟩ := whole_of_splitAtDepth hsplit
    rw [splitOutside, hsplit]
    exact List.forall_mem_cons.2 ⟨⟨hfirst, hfirst', hfirst''⟩,
      fun piece hpiece => ⟨hmore piece hpiece, hmore' piece hpiece, hmore'' piece hpiece⟩⟩
  unfold gangItem at h
  split at h
  next name value hpair =>
    have hvalue : (∃ piece ∈ item.splitOutside ':', value = trim piece) ∨ name = [] := by
      split at hpair
      · next piece hpieces =>
        exact .inl ⟨piece, by simp [hpieces], (Prod.mk.inj hpair).2.symm⟩
      · next label piece hpieces =>
        exact .inl ⟨piece, by simp [hpieces], (Prod.mk.inj hpair).2.symm⟩
      · exact .inr (Prod.mk.inj hpair).1.symm
    rcases hvalue with ⟨piece, hpiece, rfl⟩ | rfl
    · refine ⟨piece, hvalues piece hpiece, ?_⟩
      rw [positive_trim, size_trim] at h
      split at h
      · split at h
        · simp at h
        · obtain ⟨n, hn, rfl⟩ := map_eq_ok.1 h
          exact .inl ⟨n, hn, rfl⟩
      · split at h
        · split at h
          · simp at h
          · obtain ⟨s, hs, rfl⟩ := map_eq_ok.1 h
            exact .inr ⟨s, hs, rfl⟩
        · simp at h
    · simp at h

end Argument

/-- The fields have been read from values of items. -/
structure Gang.FromValues (g : Gang) : Prop where
  num : ∀ n, g.num = some n → ∃ v, Argument.IsValue v ∧ Argument.positive .gang v = .ok n
  static : ∀ s, g.static = some s → ∃ v, Argument.IsValue v ∧ Argument.size .gang v = .ok s

namespace Argument

open Text

theorem fromValues_of_gang {t : Text} {g : Gang} (ht : Nested t) (h : gang t = .ok g) :
    g.FromValues := by
  let inv (items : List Text) (g : Gang) : Prop := (∀ item ∈ items, IsItem item) ∧ g.FromValues
  have hstep : ∀ item items g g', inv (item :: items) g → gangItem g item = .ok g' →
      inv items g' := by
    rintro item items g g' ⟨hitems, hg⟩ h
    obtain ⟨hitem, hrest⟩ := List.forall_mem_cons.1 hitems
    obtain ⟨v, hv, ⟨n, hn, rfl⟩ | ⟨s, hs, rfl⟩⟩ := gangItem_eq_ok hitem h
    · exact ⟨hrest, by rintro _ ⟨⟩; exact ⟨v, hv, hn⟩, hg.static⟩
    · exact ⟨hrest, hg.num, by rintro _ ⟨⟩; exact ⟨v, hv, hs⟩⟩
  have hstart : inv (argumentItems t) {} :=
    ⟨fun item hitem => isItem_of_mem ht hitem, by simp, by simp⟩
  exact (foldlM_ok inv hstep hstart h).2

/-- A label and a value are found in the item that they make. -/
theorem map_trim_labelled (label : Text) {v : Text}
    (hlabel : ':' ∉ label) (hplain : ∀ c ∈ label, isOpening c = false ∧ isClosing c = false)
    (hv : Whole ':' 0 v) :
    ((trim (label ++ ": " ++ v)).splitOutside ':').map trim = [trim label, trim v] := by
  obtain ⟨a, b, hitem, ha, hb⟩ := exists_trim (label ++ ": " ++ v)
  have hwhole : Whole ':' 0 label := whole_of_not_mem hlabel
  have hblank : Whole ':' 0 (' ' :: v) := whole_cons.2 ⟨by decide, hv⟩
  have hsplit : splitAtDepth ':' 0 (label ++ ": " ++ v) = [label, ' ' :: v] := by
    have htext : label ++ ": " ++ v = label ++ ':' :: ' ' :: v := by simp
    rw [htext, splitAtDepth_append hwhole, depthAfter_of_plain hplain, splitAtDepth_cons,
      if_pos (by decide), hblank, Token.foldr_consHead, List.append_nil]
  have htrim := map_trim_splitAtDepth_append (by decide : isBlank ':' = false) ha hb 0
    (trim (label ++ ": " ++ v))
  rw [← hitem, hsplit] at htrim
  rw [splitOutside, ← htrim, List.map_cons, List.map_singleton, trim_cons_space]

theorem exists_splitOutside {item name value : Text}
    (h : (item.splitOutside ':').map trim = [name, value]) :
    ∃ a b, item.splitOutside ':' = [a, b] ∧ trim a = name ∧ trim b = value := by
  obtain ⟨a, rest, hsplit, ha, hrest⟩ := List.map_eq_cons_iff.1 h
  obtain ⟨b, hb, hvalue⟩ := List.map_eq_singleton_iff.1 hrest
  exact ⟨a, b, by rw [hsplit, hb], ha, hvalue⟩

theorem gangItem_num {g : Gang} {v : Text} {n : IntExpr} (hv : IsValue v)
    (hn : positive .gang v = .ok n) (hg : g.num = none) :
    gangItem g (trim ("num: " ++ n.render)) = .ok { g with num := some n } := by
  obtain rfl := positive_eq_ok hn
  have hlabel : ("num: ".toList : Text) = "num" ++ ": " := by decide
  have hpieces := map_trim_labelled "num" (by decide) (plain_of_all (by decide))
    (whole_render_int (by decide) (by decide) hv.unlabelled)
  rw [← hlabel] at hpieces
  obtain ⟨a, b, hsplit, ha, hb⟩ := exists_splitOutside hpieces
  have hpositive : positive .gang (trim b) = .ok (int v) := by
    rw [hb, positive_trim, positive_render_int, hn]
  have hname : trim a = "num" := by rw [ha]; decide
  unfold gangItem
  rw [hsplit]
  simp [hname, hg, hpositive, Except.map]

theorem gangItem_static {g : Gang} {v : Text} {s : SizeExpr} (hv : IsValue v)
    (hs : size .gang v = .ok s) (hg : g.static = none) :
    gangItem g (trim ("static: " ++ s.render)) = .ok { g with static := some s } := by
  have hlabel : ("static: ".toList : Text) = "static" ++ ": " := by decide
  have hpieces := map_trim_labelled "static" (by decide) (plain_of_all (by decide))
    (whole_render_size hs (by decide) (by decide) (by decide) hv.unlabelled)
  rw [← hlabel] at hpieces
  obtain ⟨a, b, hsplit, ha, hb⟩ := exists_splitOutside hpieces
  have hsize : size .gang (trim b) = .ok s := by
    rw [hb, size_trim, size_render hs]
  have hname : trim a = "static" := by rw [ha]; decide
  unfold gangItem
  rw [hsplit]
  simp [hname, hg, hsize, Except.map]

theorem of_label {label v : Text}
    (hlabel : ',' ∉ label) (hplain : ∀ c ∈ label, isOpening c = false ∧ isClosing c = false)
    (hblank : blank label = false) (hnested : Nested v) (hwhole : Whole ',' 0 v) :
    Nested (label ++ v) ∧ Whole ',' 0 (label ++ v) ∧ trim (label ++ v) ≠ [] := by
  refine ⟨?_, ?_, fun hnil => ?_⟩
  · rwa [(nested_of_plain hplain).append_iff]
  · rw [whole_append, depthAfter_of_plain hplain]
    exact ⟨whole_of_not_mem hlabel, hwhole⟩
  · obtain ⟨a, b, htext, ha, hb⟩ := exists_trim (label ++ v)
    have hall : blank (label ++ v) = true := by
      rw [htext, hnil, List.append_nil, blank_append, ha, hb]
      rfl
    rw [blank_append, hblank] at hall
    simp at hall

theorem of_mem_arguments {g : Gang} (h : g.FromValues) :
    ∀ piece ∈ g.arguments, Nested piece ∧ Whole ',' 0 piece ∧ trim piece ≠ [] := by
  intro piece hpiece
  rcases List.mem_append.1 hpiece with hpiece | hpiece
  · obtain ⟨n, hn, rfl⟩ := Option.map_eq_some_iff.1 (Option.mem_toList.1 hpiece)
    obtain ⟨v, hv, hpositive⟩ := h.num n hn
    obtain rfl := positive_eq_ok hpositive
    exact of_label (by decide) (plain_of_all (by decide)) (by decide) (nested_render_int hv.nested)
      (whole_render_int (by decide) (by decide) hv.whole)
  · obtain ⟨s, hs, rfl⟩ := Option.map_eq_some_iff.1 (Option.mem_toList.1 hpiece)
    obtain ⟨v, hv, hsize⟩ := h.static s hs
    exact of_label (by decide) (plain_of_all (by decide)) (by decide)
      (nested_render_size hsize hv.nested)
      (whole_render_size hsize (by decide) (by decide) (by decide) hv.whole)

theorem gang_arguments {g : Gang} (h : g.FromValues) : gang (join ", " g.arguments) = .ok g := by
  have hpieces := of_mem_arguments h
  have hitems : argumentItems (join ", " g.arguments) = g.arguments.map trim := by
    rw [argumentItems_join (fun piece hpiece => (hpieces piece hpiece).1)
      (fun piece hpiece => (hpieces piece hpiece).2.1), List.filter_eq_self]
    intro item hitem
    obtain ⟨piece, hpiece, rfl⟩ := List.mem_map.1 hitem
    have hne := (hpieces piece hpiece).2.2
    simpa using hne
  rw [gang, hitems]
  obtain ⟨num, static⟩ := g
  cases num with
  | none =>
    cases static with
    | none => rfl
    | some s =>
      obtain ⟨v, hv, hs⟩ := h.static s rfl
      change (gangItem {} (trim ("static: " ++ s.render)) >>= pure) = _
      rw [gangItem_static hv hs rfl]
      rfl
  | some n =>
    obtain ⟨v, hv, hn⟩ := h.num n rfl
    cases static with
    | none =>
      change (gangItem {} (trim ("num: " ++ n.render)) >>= pure) = _
      rw [gangItem_num hv hn rfl]
      rfl
    | some s =>
      obtain ⟨w, hw, hs⟩ := h.static s rfl
      change (gangItem {} (trim ("num: " ++ n.render)) >>= fun g =>
        gangItem g (trim ("static: " ++ s.render)) >>= pure) = _
      rw [gangItem_num hv hn rfl, ok_bind, gangItem_static hw hs rfl]
      rfl

end Argument
end Offload
