import Offload.Proofs.Argument
import Offload.Proofs.Gathering

/-!
Values of clauses written back. Each value is read from the argument that is written for it: the value
of a single clause, kind by kind, and the lists that repeated clauses make together.
-/
namespace Offload

open Outcome Text

/-- Values are got back from what is made of them, one by one. -/
theorem Outcome.mapM_map_eq_ok {ε α β : Type} {f : β → Except ε α} {g : α → β} {as : List α}
    (h : ∀ a ∈ as, f (g a) = .ok a) : (as.map g).mapM f = .ok as := by
  induction as with
  | nil => rfl
  | cons a as ih =>
    obtain ⟨ha, has⟩ := List.forall_mem_cons.1 h
    rw [List.map_cons, List.mapM_cons, ha, ok_bind, ih has]
    rfl

/-! One clause. -/

namespace ClauseContext

variable {ctx : ClauseContext} {kind : ClauseKind} {argument : Option Text} {clause : Clause}

/-- The value is read from what is written for it. -/
structure Reprints (ctx : ClauseContext) (kind : ClauseKind) (clause : Clause) : Prop where
  nested : ∀ a, clause.argument? = some a → Nested a
  read : ctx.read kind clause.argument? = .ok clause

theorem present_again {text : Text} (h : Argument.present kind argument = .ok text) :
    Argument.present kind (some text) = .ok text := by
  obtain ⟨a, -, rfl, hne⟩ := Argument.present_eq_ok.1 h
  exact Argument.present_eq_ok.2 ⟨_, rfl, (trim_trim a).symm, hne⟩

theorem nested_of_present {text : Text} (hn : ∀ a, argument = some a → Nested a)
    (h : Argument.present kind argument = .ok text) : Nested text := by
  obtain ⟨a, ha, rfl, -⟩ := Argument.present_eq_ok.1 h
  exact nested_trim.2 (hn a ha)

theorem present_render_int {text : Text} (h : Argument.present kind argument = .ok text) :
    Argument.present kind (some (Argument.int text).render) = .ok (Argument.int text).render := by
  obtain ⟨a, -, rfl, hne⟩ := Argument.present_eq_ok.1 h
  refine Argument.present_eq_ok.2 ⟨_, rfl, (Argument.trim_render_int _).symm, ?_⟩
  exact Argument.render_int_ne_nil (by rwa [trim_trim])

theorem reprints_async (hn : ∀ a, argument = some a → Nested a) :
    ctx.Reprints .async (.async (argument.map Argument.int)) := by
  cases argument with
  | none => exact ⟨nofun, rfl⟩
  | some a =>
    refine ⟨?_, ?_⟩
    · rintro _ ⟨⟩
      exact Argument.nested_render_int (hn a rfl)
    · change Except.ok (Clause.async (some (Argument.int (Argument.int a).render))) = _
      rw [Argument.int_render]
      rfl

theorem read_size (hkind : kind.sharedForm? = some .size) (argument : Option Text) :
    ctx.read kind argument = ctx.located do
      let text ← Argument.present kind argument
      return .int (← Argument.positive kind text) := by
  cases kind <;> simp [ClauseKind.sharedForm?] at hkind <;> rfl

theorem reprints_size (hkind : kind.sharedForm? = some .size)
    (hn : ∀ a, argument = some a → Nested a) (h : ctx.read kind argument = .ok clause) :
    ctx.Reprints kind clause := by
  rw [read_size hkind, located_eq_ok] at h
  obtain ⟨text, htext, h⟩ := bind_eq_ok.1 h
  obtain ⟨e, he, h⟩ := bind_eq_ok.1 h
  obtain rfl := Except.ok.inj h
  obtain rfl := Argument.positive_eq_ok he
  refine ⟨?_, ?_⟩
  · rintro _ ⟨⟩
    exact Argument.nested_render_int (nested_of_present hn htext)
  · rw [read_size hkind, located_eq_ok]
    refine bind_eq_ok.2 ⟨_, present_render_int htext, bind_eq_ok.2 ⟨Argument.int text, ?_, rfl⟩⟩
    rw [Argument.positive_render_int, he]

theorem read_number (hkind : kind.sharedForm? = some .number) (argument : Option Text) :
    ctx.read kind argument = ctx.located do
      return .int (Argument.int (← Argument.present kind argument)) := by
  cases kind <;> simp [ClauseKind.sharedForm?] at hkind <;> rfl

theorem reprints_number (hkind : kind.sharedForm? = some .number)
    (hn : ∀ a, argument = some a → Nested a) (h : ctx.read kind argument = .ok clause) :
    ctx.Reprints kind clause := by
  rw [read_number hkind, located_eq_ok] at h
  obtain ⟨text, htext, h⟩ := bind_eq_ok.1 h
  obtain rfl := Except.ok.inj h
  refine ⟨?_, ?_⟩
  · rintro _ ⟨⟩
    exact Argument.nested_render_int (nested_of_present hn htext)
  · rw [read_number hkind, located_eq_ok]
    refine bind_eq_ok.2 ⟨_, present_render_int htext, ?_⟩
    rw [Argument.int_render]
    rfl

theorem read_flag (hkind : kind.sharedForm? = some .flag) (argument : Option Text) :
    ctx.read kind argument = ctx.located do
      Argument.absent kind argument
      return .flag := by
  cases kind <;> simp [ClauseKind.sharedForm?] at hkind <;> rfl

theorem reprints_flag (hkind : kind.sharedForm? = some .flag)
    (h : ctx.read kind argument = .ok clause) : ctx.Reprints kind clause := by
  rw [read_flag hkind, located_eq_ok] at h
  obtain ⟨_, -, h⟩ := bind_eq_ok.1 h
  obtain rfl := Except.ok.inj h
  exact ⟨nofun, read_flag hkind none⟩

theorem reprints_condition (hn : ∀ a, argument = some a → Nested a)
    (h : ctx.read .ifCondition argument = .ok clause) : ctx.Reprints .ifCondition clause := by
  obtain ⟨text, htext, h⟩ := bind_eq_ok.1 (located_eq_ok.1 h)
  obtain rfl := Except.ok.inj h
  refine ⟨?_, ?_⟩
  · rintro _ ⟨⟩
    exact nested_of_present hn htext
  · exact located_eq_ok.2 (bind_eq_ok.2 ⟨text, present_again htext, rfl⟩)

theorem reprints_default (h : ctx.read .default argument = .ok clause) :
    ctx.Reprints .default clause := by
  obtain ⟨rule, -, rfl⟩ := map_eq_ok.1 (located_eq_ok.1 h)
  refine ⟨?_, ?_⟩
  · rintro _ ⟨⟩
    cases rule <;> decide
  · cases rule <;> rfl

theorem reprints_bind (h : ctx.read .bind argument = .ok clause) : ctx.Reprints .bind clause := by
  obtain ⟨name, hname, rfl⟩ := map_eq_ok.1 (located_eq_ok.1 h)
  have hidentifier : isIdentifier name = true := by
    obtain ⟨text, -, hname⟩ := bind_eq_ok.1 hname
    dsimp only at hname
    split at hname
    · next hid =>
      obtain rfl := Except.ok.inj hname
      exact hid
    · simp at hname
  have hchars : ∀ c ∈ name, Identifier.isXidContinue c = true := fun c hc =>
    Identifier.isXidContinue_of_isIdentifier hidentifier hc
  have hne : ∀ d, Identifier.isSign d = true → ∀ c ∈ name, c ≠ d := fun d hd c hc =>
    Identifier.ne_of_isXidContinue (hchars c hc) hd
  refine ⟨?_, ?_⟩
  · rintro _ ⟨⟩
    refine nested_of_plain fun c hc => ?_
    unfold isOpening isClosing
    simp [hne '(' (by decide) c hc, hne '[' (by decide) c hc, hne '\x7b' (by decide) c hc,
      hne ')' (by decide) c hc, hne ']' (by decide) c hc, hne '\x7d' (by decide) c hc]
  · have htrim : trim name = name := stripWhile_of_forall fun c hc => by
      by_contra hb
      rw [Bool.not_eq_false] at hb
      have hblank := Identifier.isXidContinue_of_isBlank hb
      rw [hchars c hc] at hblank
      simp at hblank
    have hquotes : stripWhile (fun c => c == '"' || c == '\'') name = name :=
      stripWhile_of_forall fun c hc => by
        simp [hne '"' (by decide) c hc, hne '\'' (by decide) c hc]
    have hpresent : Argument.present .bind (some name) = .ok name :=
      Argument.present_eq_ok.2 ⟨name, rfl, htrim.symm, ne_nil_of_isIdentifier hidentifier⟩
    refine located_eq_ok.2 (map_eq_ok.2 ⟨name, bind_eq_ok.2 ⟨name, hpresent, ?_⟩, rfl⟩)
    dsimp only
    rw [hquotes, if_pos hidentifier]
    rfl

theorem checkSizeAllowed_again {a : Text} (h : ctx.checkSizeAllowed kind a = .ok ()) (b : Text) :
    ctx.checkSizeAllowed kind b = .ok () := by
  unfold checkSizeAllowed at h ⊢
  split at h
  · next hloop => rw [if_pos hloop]
  · simp [Argument.absent, located] at h

theorem sizeFault?_again {constructClause : ClauseKind} {a : Text}
    (h : ctx.sizeFault? kind constructClause a = none) (b : Text) :
    ctx.sizeFault? kind constructClause b = none := by
  unfold sizeFault? at h ⊢
  split at h
  · simp at h
  · next construct hconstruct =>
    split at h
    · simp at h
    · next hkernels =>
      split at h
      · simp at h
      · next hopen => rw [if_neg hkernels, if_neg hopen]

/-- Whether a size is allowed does not depend on how it is written. -/
theorem checkSize_again {constructClause : ClauseKind} {a : Text}
    (h : ctx.checkSize kind constructClause a = .ok ()) (b : Text) :
    ctx.checkSize kind constructClause b = .ok () := by
  unfold checkSize at h ⊢
  by_cases hloop : ctx.kind = .loop
  · simp only [if_pos hloop] at h ⊢
    split at h
    · simp at h
    · next hnone => rw [sizeFault?_again hnone]
  · simp only [if_neg hloop]

theorem size_again {constructClause : ClauseKind} {modifier : Text} {count : Option UInt32}
    (h : ctx.size kind constructClause modifier argument = .ok count) :
    ctx.size kind constructClause modifier (count.map fun n => decimal n.toNat) = .ok count := by
  cases argument with
  | none =>
    obtain rfl := Except.ok.inj h
    rfl
  | some a =>
    obtain ⟨_, hallowed, h⟩ := bind_eq_ok.1 h
    obtain ⟨n, hn, h⟩ := bind_eq_ok.1 h
    obtain ⟨_, hcheck, h⟩ := bind_eq_ok.1 h
    obtain rfl := Except.ok.inj h
    -- Digits have no modifier before them.
    have hcut : cutAtDepth? ":" 0 (decimal n.toNat) = none :=
      cutAtDepth?_eq_none (not_mem_decimal (by decide) n.toNat) 0
    have hmodifier : (Argument.takeModifier modifier (decimal n.toNat)).2 = decimal n.toNat := by
      rw [Argument.takeModifier, hcut]
    have hcount : Argument.count kind (Argument.takeModifier modifier (decimal n.toNat)).2 = .ok n := by
      rw [hmodifier]
      exact Argument.count_decimal (located_eq_ok.1 hn)
    exact bind_eq_ok.2 ⟨(), checkSizeAllowed_again hallowed _,
      bind_eq_ok.2 ⟨n, located_eq_ok.2 hcount, bind_eq_ok.2 ⟨(), checkSize_again hcheck _, rfl⟩⟩⟩

theorem nested_decimal {count : Option UInt32} :
    ∀ a, count.map (fun n => decimal n.toNat) = some a → Nested a := by
  intro a ha
  obtain ⟨n, -, rfl⟩ := Option.map_eq_some_iff.1 ha
  exact (isItem_decimal n.toNat).nested

theorem reprints_worker (h : ctx.read .worker argument = .ok clause) :
    ctx.Reprints .worker clause := by
  obtain ⟨count, hcount, rfl⟩ := map_eq_ok.1 h
  exact ⟨nested_decimal, map_eq_ok.2 ⟨count, size_again hcount, rfl⟩⟩

theorem reprints_vector (h : ctx.read .vector argument = .ok clause) :
    ctx.Reprints .vector clause := by
  obtain ⟨length, hlength, rfl⟩ := map_eq_ok.1 h
  exact ⟨nested_decimal, map_eq_ok.2 ⟨length, size_again hlength, rfl⟩⟩

theorem reprints_gang (hn : ∀ a, argument = some a → Nested a)
    (h : ctx.read .gang argument = .ok clause) : ctx.Reprints .gang clause := by
  obtain ⟨g, hg, rfl⟩ := map_eq_ok.1 h
  cases argument with
  | none =>
    obtain rfl := Except.ok.inj hg
    exact ⟨nofun, rfl⟩
  | some a =>
    obtain ⟨hvalue, hcheck⟩ := gang_eq_ok hg
    have hfrom := Argument.fromValues_of_gang (hn a rfl) hvalue
    obtain ⟨_, hallowed, -⟩ := bind_eq_ok.1 hg
    have hagain : ctx.gang (some (join ", " g.arguments)) = .ok g := by
      refine bind_eq_ok.2 ⟨(), checkSizeAllowed_again hallowed _, bind_eq_ok.2
        ⟨g, located_eq_ok.2 (Argument.gang_arguments hfrom), ?_⟩⟩
      split
      · next hnum => exact bind_eq_ok.2 ⟨(), checkSize_again (hcheck hnum) _, rfl⟩
      · rfl
    cases harguments : g.arguments with
    | nil =>
      obtain ⟨num, static⟩ := g
      cases num <;> cases static <;> simp [Gang.arguments] at harguments
      exact ⟨nofun, rfl⟩
    | cons first more =>
      have hargument : (Clause.gang g).argument? = some (join ", " g.arguments) := by
        simp only [Clause.argument?, harguments]
      refine ⟨?_, ?_⟩
      · rw [hargument]
        rintro _ ⟨⟩
        exact nested_join fun piece hpiece => (Argument.of_mem_arguments hfrom piece hpiece).1
      · rw [hargument]
        exact map_eq_ok.2 ⟨g, hagain, rfl⟩

theorem reprints_collapse (h : ctx.read .collapse argument = .ok clause) :
    ctx.Reprints .collapse clause := by
  obtain ⟨text, -, h⟩ := bind_eq_ok.1 h
  obtain ⟨count, hcount, h⟩ := bind_eq_ok.1 h
  obtain ⟨span, hspan, h⟩ := bind_eq_ok.1 h
  obtain ⟨loops, hloops, h⟩ := bind_eq_ok.1 h
  obtain rfl := Except.ok.inj h
  have hitem := isItem_decimal count.toNat
  have hpresent : Argument.present .collapse (some (decimal count.toNat)) =
      .ok (decimal count.toNat) :=
    Argument.present_eq_ok.2 ⟨_, rfl, hitem.trimmed.symm, hitem.nonempty⟩
  have hcount' := Argument.count_decimal (located_eq_ok.1 hcount)
  refine ⟨?_, ?_⟩
  · rintro _ ⟨⟩
    exact hitem.nested
  · exact bind_eq_ok.2 ⟨_, located_eq_ok.2 hpresent, bind_eq_ok.2 ⟨count, located_eq_ok.2 hcount',
      bind_eq_ok.2 ⟨span, hspan, bind_eq_ok.2 ⟨loops, hloops, rfl⟩⟩⟩⟩

theorem reprints_tile (hn : ∀ a, argument = some a → Nested a)
    (h : ctx.read .tile argument = .ok clause) : ctx.Reprints .tile clause := by
  obtain ⟨text, htext, h⟩ := bind_eq_ok.1 h
  obtain ⟨sizes, hsizes, h⟩ := bind_eq_ok.1 h
  by_cases hempty : sizes.isEmpty = true
  · rw [if_pos hempty] at h
    simp at h
  rw [if_neg hempty] at h
  obtain ⟨span, hspan, h⟩ := bind_eq_ok.1 h
  obtain ⟨loops, hloops, h⟩ := bind_eq_ok.1 h
  obtain rfl := Except.ok.inj h
  have hread : ∀ s ∈ sizes, ∃ item, IsItem item ∧ Argument.size .tile item = .ok s := by
    intro s hs
    obtain ⟨item, hitem, hsize⟩ := exists_of_mem_mapM (located_eq_ok.1 hsizes) hs
    exact ⟨item, isItem_of_mem (nested_of_present hn (located_eq_ok.1 htext)) hitem, hsize⟩
  have hitems : AreItems (sizes.map SizeExpr.render) := by
    refine ⟨by simpa using hempty, fun item hitem => ?_⟩
    obtain ⟨s, hs, rfl⟩ := List.mem_map.1 hitem
    obtain ⟨item, hitem, hsize⟩ := hread s hs
    exact Argument.isItem_render_size hsize hitem
  have hsizes' : (argumentItems (join ", " (sizes.map SizeExpr.render))).mapM
      (Argument.size .tile) = .ok sizes := by
    rw [argumentItems_join_items hitems.isItem]
    refine mapM_map_eq_ok fun s hs => ?_
    obtain ⟨item, -, hsize⟩ := hread s hs
    exact Argument.size_render hsize
  refine ⟨?_, ?_⟩
  · rintro _ ⟨⟩
    exact nested_join fun item hitem => (hitems.isItem item hitem).nested
  · refine bind_eq_ok.2 ⟨_, located_eq_ok.2 (Argument.present_join hitems),
      bind_eq_ok.2 ⟨sizes, located_eq_ok.2 hsizes', ?_⟩⟩
    rw [if_neg hempty]
    exact bind_eq_ok.2 ⟨span, hspan, bind_eq_ok.2 ⟨loops, hloops, rfl⟩⟩

theorem reprints_reduction (hn : ∀ a, argument = some a → Nested a)
    (h : ctx.read .reduction argument = .ok clause) : ctx.Reprints .reduction clause := by
  obtain ⟨text, htext, h⟩ := bind_eq_ok.1 (located_eq_ok.1 h)
  obtain ⟨r, hr, h⟩ := bind_eq_ok.1 h
  obtain rfl := Except.ok.inj h
  have hvars := Argument.areItems_of_reduction (nested_of_present hn htext) hr
  have hargument : (Clause.reduction [r]).argument? = some r.render := by
    simp [Clause.argument?, join]
  refine ⟨?_, ?_⟩
  · rw [hargument]
    rintro _ ⟨⟩
    exact Argument.nested_render_reduction hvars
  · rw [hargument]
    exact located_eq_ok.2 (bind_eq_ok.2 ⟨_, Argument.present_render_reduction hvars,
      bind_eq_ok.2 ⟨r, Argument.reduction_render hvars, rfl⟩⟩)

/-! Lists of variables. -/

theorem areItems_of_vars (hn : ∀ a, argument = some a → Nested a)
    (h : vars kind argument = .ok clause) :
    ∃ items, clause = .vars { vars := items } ∧ AreItems items := by
  obtain ⟨text, htext, h⟩ := bind_eq_ok.1 h
  obtain ⟨items, hitems, h⟩ := bind_eq_ok.1 h
  exact ⟨items, (Except.ok.inj h).symm,
    Argument.areItems_of_names (nested_of_present hn htext) hitems⟩

theorem vars_join {items : List Text} (h : AreItems items) :
    vars kind (some (join ", " items)) = .ok (.vars { vars := items }) :=
  bind_eq_ok.2 ⟨_, Argument.present_join h, bind_eq_ok.2 ⟨items, Argument.names_join h, rfl⟩⟩

theorem nested_vars {list : VarList} (h : AreItems list.vars) :
    ∀ a, (Clause.vars list).argument? = some a → Nested a := by
  rintro _ ⟨⟩
  have hjoin : Nested (join ", " list.vars) :=
    nested_join fun item hitem => (h.isItem item hitem).nested
  have hmodifier : Nested "readonly: ".toList := by decide
  unfold VarList.render
  cases list.readonly with
  | false => exact hjoin
  | true => exact hmodifier.append_iff.2 hjoin

theorem reprints_self (hn : ∀ a, argument = some a → Nested a)
    (h : ctx.read .self argument = .ok clause) : ctx.Reprints .self clause := by
  by_cases hupdate : ctx.kind = .update
  · have hread : ∀ argument, ctx.read .self argument = ctx.located (vars .self argument) :=
      fun _ => if_pos hupdate
    rw [hread, located_eq_ok] at h
    obtain ⟨items, rfl, hitems⟩ := areItems_of_vars hn h
    refine ⟨nested_vars hitems, ?_⟩
    rw [hread, located_eq_ok]
    exact vars_join hitems
  · have hread : ∀ argument, ctx.read .self argument = .ok (selfCondition argument) :=
      fun _ => if_neg hupdate
    rw [hread] at h
    obtain rfl := Except.ok.inj h
    unfold selfCondition
    split
    · next c cs htrim =>
      obtain ⟨a, rfl, ha⟩ := Option.map_eq_some_iff.1 htrim
      refine ⟨?_, ?_⟩
      · rintro _ ⟨⟩
        rw [← ha]
        exact nested_trim.2 (hn a rfl)
      · rw [hread]
        have hagain : trim (c :: cs) = c :: cs := by rw [← ha, trim_trim]
        simp [Clause.argument?, selfCondition, hagain]
    · exact ⟨nofun, hread none⟩

/-- A clause that cannot be repeated, or a single reduction, is read from what is written. -/
theorem reprints_of_read (hkind : kind.isRepeatable = false ∨ kind = .reduction)
    (hn : ∀ a, argument = some a → Nested a) (h : ctx.read kind argument = .ok clause) :
    ctx.Reprints kind clause := by
  cases kind with
  | async =>
    obtain rfl := Except.ok.inj h
    exact reprints_async hn
  | numGangs | numWorkers | vectorLength => exact reprints_size rfl hn h
  | defaultAsync | deviceNum => exact reprints_number rfl hn h
  | ifCondition => exact reprints_condition hn h
  | self => exact reprints_self hn h
  | reduction => exact reprints_reduction hn h
  | default => exact reprints_default h
  | collapse => exact reprints_collapse h
  | gang => exact reprints_gang hn h
  | worker => exact reprints_worker h
  | vector => exact reprints_vector h
  | tile => exact reprints_tile hn h
  | bind => exact reprints_bind h
  | seq | auto | independent | read | write | update | capture | noHost | ifPresent | finalize =>
    exact reprints_flag rfl h
  | _ => simp [ClauseKind.isRepeatable] at hkind

/-- The values of clauses that can be repeated, by what their items are. The first variable of a
`copyin` without modifier must not be taken for the modifier. -/
inductive Listed : ClauseKind → Clause → Prop
  | wait {queues : List IntExpr} : (∀ e ∈ queues, ∃ item, IsItem item ∧ e = Argument.int item) →
    Listed .wait (.wait queues)
  | deviceTypes {types : List Text} : AreItems types → Listed .deviceType (.deviceTypes types)
  | copyIn {list : VarList} : AreItems list.vars →
    (list.readonly = false → ∀ first ∈ list.vars.head?, ¬ Argument.Marked first) →
    Listed .copyIn (.vars list)
  | vars {kind : ClauseKind} {items : List Text} : kind.sharedForm? = some .vars →
    kind ≠ .copyIn → AreItems items → Listed kind (.vars { vars := items })

theorem Listed.merge {a b m : Clause} (ha : Listed kind a) (hb : Listed kind b)
    (h : a.merge? b = some m) : Listed kind m := by
  cases ha with
  | wait hqueues =>
    cases hb with
    | wait hmore =>
      obtain rfl := Option.some.inj h
      exact .wait (List.forall_mem_append.2 ⟨hqueues, hmore⟩)
    | vars hkind => simp [ClauseKind.sharedForm?] at hkind
  | deviceTypes htypes =>
    cases hb with
    | deviceTypes hmore =>
      obtain rfl := Option.some.inj h
      exact .deviceTypes (htypes.append hmore)
    | vars hkind => simp [ClauseKind.sharedForm?] at hkind
  | copyIn hvars hfirst =>
    cases hb with
    | copyIn hmore =>
      obtain rfl := Option.some.inj h
      refine .copyIn (hvars.append hmore) fun hreadonly => ?_
      -- The first variable is that of the first clause.
      rw [List.head?_append_of_ne_nil _ hvars.ne_nil]
      exact hfirst (Bool.or_eq_false_iff.1 hreadonly).1
    | vars _ hne => exact absurd rfl hne
  | vars hkind hne hitems =>
    cases hb with
    | wait => simp [ClauseKind.sharedForm?] at hkind
    | deviceTypes => simp [ClauseKind.sharedForm?] at hkind
    | copyIn => exact absurd rfl hne
    | vars _ _ hmore =>
      obtain rfl := Option.some.inj h
      exact .vars hkind hne (hitems.append hmore)

theorem read_vars (hkind : kind.sharedForm? = some .vars) (hne : kind ≠ .copyIn)
    (argument : Option Text) : ctx.read kind argument = ctx.located (vars kind argument) := by
  cases kind <;> simp [ClauseKind.sharedForm?] at hkind hne <;> rfl

theorem listed_vars (hkind : kind.sharedForm? = some .vars) (hne : kind ≠ .copyIn)
    (hn : ∀ a, argument = some a → Nested a) (h : ctx.read kind argument = .ok clause) :
    Listed kind clause := by
  rw [read_vars hkind hne, located_eq_ok] at h
  obtain ⟨items, rfl, hitems⟩ := areItems_of_vars hn h
  exact .vars hkind hne hitems

/-- The first item of a list without empty pieces is its first piece. -/
theorem head?_argumentItems {a first : Text} {more : List Text}
    (hsplit : a.splitOutside ',' = first :: more) (hfirst : blank first = false) :
    (argumentItems a).head? = some (trim first) := by
  have hne : trim first ≠ [] := by
    intro hnil
    obtain ⟨u, v, htext, hu, hv⟩ := exists_trim first
    rw [hnil, List.append_nil] at htext
    rw [htext, blank_append, hu, hv] at hfirst
    simp at hfirst
  unfold argumentItems
  rw [hsplit, List.map_cons, List.filter_cons_of_pos (by simpa using hne)]
  rfl

theorem marked_of_head {a first : Text} {more : List Text}
    (hsplit : a.splitOutside ',' = first :: more) (h : Argument.Marked first) :
    Argument.Marked a := by
  have hjoin := join_splitAtDepth ',' 0 a
  rw [splitOutside] at hsplit
  rw [hsplit] at hjoin
  rw [← hjoin]
  cases more with
  | nil => simpa [join] using h
  | cons next more =>
    rw [join_cons_cons, List.append_assoc]
    exact h.append _

theorem read_copyIn_eq_ok : ctx.read .copyIn argument = .ok clause ↔
    ∃ text readonly rest items, Argument.present .copyIn argument = .ok text ∧
      Argument.takeModifier "readonly" text = (readonly, rest) ∧
      Argument.names .copyIn rest = .ok items ∧ clause = .vars ⟨readonly, items⟩ := by
  constructor
  · intro h
    obtain ⟨text, htext, h⟩ := bind_eq_ok.1 (located_eq_ok.1 h)
    cases hmodifier : Argument.takeModifier "readonly" text with
    | mk readonly rest =>
      rw [hmodifier] at h
      obtain ⟨items, hitems, h⟩ := bind_eq_ok.1 h
      exact ⟨text, readonly, rest, items, htext, hmodifier, hitems, (Except.ok.inj h).symm⟩
  · rintro ⟨text, readonly, rest, items, htext, hmodifier, hitems, rfl⟩
    refine located_eq_ok.2 (bind_eq_ok.2 ⟨text, htext, ?_⟩)
    rw [hmodifier]
    exact bind_eq_ok.2 ⟨items, hitems, rfl⟩

theorem listed_copyIn (hn : ∀ a, argument = some a → Nested a)
    (hfilled : ∀ a, argument = some a → ∀ piece ∈ a.splitOutside ',', blank piece = false)
    (h : ctx.read .copyIn argument = .ok clause) : Listed .copyIn clause := by
  obtain ⟨text, readonly, rest, items, htext, hmodifier, hitems, rfl⟩ := read_copyIn_eq_ok.1 h
  have hnested := nested_of_present hn htext
  obtain ⟨a, rfl, rfl, -⟩ := Argument.present_eq_ok.1 htext
  by_cases hmarked : Argument.Marked (trim a)
  · obtain ⟨before, behind, heq, hname⟩ := hmarked
    rw [heq, Argument.takeModifier_of_marked hname] at hmodifier
    obtain ⟨rfl, rfl⟩ := Prod.mk.inj hmodifier
    have hbehind : Nested behind := by
      have hcolon : Nested [':'] := by decide
      rw [heq, (nested_of_plain (Argument.plain_of_trim hname)).append_iff] at hnested
      exact hcolon.append_iff.1 hnested
    exact .copyIn (Argument.areItems_of_names (nested_trim.2 hbehind) hitems) nofun
  · rw [Argument.takeModifier_of_not_marked hmarked] at hmodifier
    obtain ⟨rfl, rfl⟩ := Prod.mk.inj hmodifier
    refine .copyIn (Argument.areItems_of_names hnested hitems) fun _ first hfirst hmark => ?_
    obtain ⟨piece, more, hsplit⟩ := exists_splitAtDepth ',' 0 a
    have hhead := head?_argumentItems hsplit (hfilled a rfl piece (by simp [splitOutside, hsplit]))
    have hitems' : argumentItems a = items := by
      rw [← argumentItems_trim]
      exact (Argument.names_eq_ok.1 hitems).1
    rw [← hitems', hhead, Option.mem_some_iff] at hfirst
    subst hfirst
    exact hmarked (marked_of_head hsplit hmark.of_trim).trimmed

theorem listed_of_read (hkind : kind.isRepeatable = true) (hne : kind ≠ .reduction)
    (hn : ∀ a, argument = some a → Nested a)
    (hfilled : kind = .copyIn →
      ∀ a, argument = some a → ∀ piece ∈ a.splitOutside ',', blank piece = false)
    (h : ctx.read kind argument = .ok clause) : Listed kind clause := by
  cases kind with
  | wait =>
    obtain rfl := Except.ok.inj h
    refine .wait fun e he => ?_
    cases argument with
    | none => simp at he
    | some a =>
      obtain ⟨item, hitem, rfl⟩ := List.mem_map.1 he
      exact ⟨item, isItem_of_mem (hn a rfl) hitem, rfl⟩
  | deviceType =>
    obtain ⟨text, htext, h⟩ := bind_eq_ok.1 (located_eq_ok.1 h)
    obtain ⟨types, htypes, h⟩ := bind_eq_ok.1 h
    obtain rfl := Except.ok.inj h
    exact .deviceTypes (Argument.areItems_of_names (nested_of_present hn htext) htypes)
  | copyIn => exact listed_copyIn hn (hfilled rfl) h
  | copy | copyOut | create | noCreate | present | devicePointer | attach | detach | delete
  | deviceResident | link | useDevice | host | device | privateCopy | firstPrivate =>
    exact listed_vars rfl (by decide) hn h
  | reduction => exact absurd rfl hne
  | _ => simp [ClauseKind.isRepeatable] at hkind

theorem reprints_copyIn {list : VarList} (hitems : AreItems list.vars)
    (hfirst : list.readonly = false → ∀ first ∈ list.vars.head?, ¬ Argument.Marked first) :
    ctx.Reprints .copyIn (.vars list) := by
  refine ⟨nested_vars hitems, read_copyIn_eq_ok.2 ?_⟩
  obtain ⟨readonly, items⟩ := list
  cases readonly with
  | true =>
    have hword : trim "readonly" = "readonly" := by decide
    have hargument : (Clause.vars ⟨true, items⟩).argument? =
        some ("readonly" ++ ": " ++ join ", " items) := by
      have hmodifier : "readonly: ".toList = "readonly" ++ ": " := by decide
      rw [← hmodifier]
      rfl
    have htrim : trim ("readonly" ++ ": " ++ join ", " items) =
        "readonly" ++ ": " ++ join ", " items :=
      trim_append_append (by decide) (join_items_ne_nil hitems.ne_nil hitems.isItem) hword
        (trim_join_items hitems.isItem) ": "
    have hpresent : Argument.present .copyIn (some ("readonly" ++ ": " ++ join ", " items)) =
        .ok ("readonly" ++ ": " ++ join ", " items) :=
      Argument.present_eq_ok.2 ⟨_, rfl, htrim.symm, by simp⟩
    have hmodifier : Argument.takeModifier "readonly" ("readonly" ++ ": " ++ join ", " items) =
        (true, trim (' ' :: join ", " items)) :=
      Argument.takeModifier_of_marked hword
    have hnames : Argument.names .copyIn (trim (' ' :: join ", " items)) = .ok items := by
      rw [trim_cons_space, trim_join_items hitems.isItem]
      exact Argument.names_join hitems
    rw [hargument]
    exact ⟨_, true, _, items, hpresent, hmodifier, hnames, rfl⟩
  | false =>
    have hunmarked : ¬ Argument.Marked (join ", " items) := by
      intro hmarked
      cases items with
      | nil => exact hitems.ne_nil rfl
      | cons first more =>
        refine hfirst rfl first (by simp) ?_
        cases more with
        | nil => simpa [join] using hmarked
        | cons next more =>
          rw [join_cons_cons, List.append_assoc] at hmarked
          exact Argument.Marked.of_append_comma hmarked
    exact ⟨_, false, _, items, Argument.present_join hitems,
      Argument.takeModifier_of_not_marked hunmarked, Argument.names_join hitems, rfl⟩

theorem Listed.reprints (h : Listed kind clause) : ctx.Reprints kind clause := by
  cases h with
  | wait hqueues =>
    next queues =>
    cases queues with
    | nil => exact ⟨nofun, rfl⟩
    | cons first more =>
      have hitems : ∀ item ∈ (first :: more).map IntExpr.render, IsItem item := by
        intro item hitem
        obtain ⟨e, he, rfl⟩ := List.mem_map.1 hitem
        obtain ⟨source, hsource, rfl⟩ := hqueues e he
        exact Argument.isItem_render_int hsource
      have hagain : ((first :: more).map IntExpr.render).map Argument.int = first :: more := by
        rw [List.map_map, List.map_congr_left (g := id), List.map_id]
        intro e he
        obtain ⟨source, -, rfl⟩ := hqueues e he
        exact Argument.int_render source
      refine ⟨?_, ?_⟩
      · rintro _ ⟨⟩
        exact nested_join fun item hitem => (hitems item hitem).nested
      · change Except.ok (Clause.wait ((argumentItems (join ", "
          ((first :: more).map IntExpr.render))).map Argument.int)) = _
        rw [argumentItems_join_items hitems, hagain]
  | deviceTypes htypes =>
    refine ⟨?_, ?_⟩
    · rintro _ ⟨⟩
      exact nested_join fun item hitem => (htypes.isItem item hitem).nested
    · exact located_eq_ok.2 (bind_eq_ok.2 ⟨_, Argument.present_join htypes,
        bind_eq_ok.2 ⟨_, Argument.names_join htypes, rfl⟩⟩)
  | copyIn hitems hfirst => exact reprints_copyIn hitems hfirst
  | vars hkind hne hitems =>
    refine ⟨nested_vars hitems, ?_⟩
    rw [read_vars hkind hne, located_eq_ok]
    exact vars_join hitems

end ClauseContext

end Offload
