import DebugAdapter.Proofs.Debugger.Scopes
import DebugAdapter.Proofs.Value.Spending

/-!
# How long results last

Nothing but its pin keeps the result of an evaluation.  Every pin is under the handle of its value
(`Paired`), through whatever happens, since nothing takes a handle from a value in memory.  So a
result can be listed as long as its pin is there, and that is as long as fewer others than there is
room for are used after it.

Memory is the debuggee's.  All that is asked of it is `Tidy`: where values get handles, there is one
value at an address, the pinned ones included, and the adapter's own are below the next free offset.
-/

namespace DebugAdapter

open Value (Coherent Orderly Within)
open PinCache (Use Ageless Newest usedBesides)
open Inspector (InReach Reached Spent PinUse)

variable {C : Type} [Context C]

namespace Debugger

/-- The memory that a request gives handles in is orderly, the pins included. -/
def Tidy (d : Debugger C) : Happening C → Prop
  | .event (.scopes _) => Orderly (d.inspector.held d.frames.held) d.inspector.made
  | .event (.children p _ _ _ _) => Orderly (d.inspector.held (d.held p)) d.inspector.made
  | .event (.evaluate (some frame) expression) =>
    ∀ known s v made, d.frames.get? frame = some known →
      d.coordinator.suspended.get? known.thread = some s →
      Context.evaluate s.context known.index expression d.inspector.made = (.ok v, made) →
      d.inspector.made ≤ made ∧ Orderly (v :: d.inspector.held d.frames.held) made
  | _ => True

/-- Everything is tidy where it happens. -/
def TidyAlong : Debugger C → List (Happening C) → Prop
  | _, [] => True
  | d, e :: hs => d.Tidy e ∧ TidyAlong (d.undergo e) hs

/-! ## Uses of pins -/

omit [Context C] in
/-- What listing the exception of a thread pins. -/
def exceptionUses (d : Debugger C) (t : ThreadId) : List PinUse :=
  match d.exceptionOf? t with
  | none => []
  | some e =>
    let (v, d) := d.exceptionValue t e
    [.put (d.inspector.pin v).1 v]

omit [Context C] in
def scopesUses (d : Debugger C) (frame : Int) : List PinUse :=
  match d.frames.get? frame with
  | none => []
  | some known => if known.top then d.exceptionUses known.thread else []

def evaluateUses (d : Debugger C) (frame : Option Int) (expression : String) : List PinUse :=
  match frame.bind d.frames.get? with
  | none => []
  | some known =>
    match d.coordinator.suspended.get? known.thread with
    | none => []
    | some s =>
      match Context.evaluate s.context known.index expression d.inspector.made with
      | (.error _, _) => []
      | (.ok v, made) =>
        let (row, inspector) := { d.inspector with made }.row "result" v
        { d.inspector with made }.rowUses v ++ inspector.keepUses row.reference v

/-- The pins that are put and found when something happens. -/
def uses (d : Debugger C) : Happening C → List PinUse
  | .event (.scopes frame) => d.scopesUses frame
  | .event (.children p id filter start count) =>
    d.inspector.childrenUses (d.held p) id filter start count
  | .event (.evaluate frame expression) => d.evaluateUses frame expression
  | _ => []

def usesAlong : Debugger C → List (Happening C) → List PinUse
  | _, [] => []
  | d, e :: hs => d.uses e ++ usesAlong (d.undergo e) hs

section
variable {memory : List Value} {made : Nat} {d : Debugger C}

omit [Context C] in
/-- To note what a handle shows uses nothing. -/
theorem spent_listScope (hc : d.inspector.handles.Consistent) (frame : Int) (name : String)
    (id : Nat) :
    Spent memory made d.inspector (d.listScope frame name id).2.inspector [] := by
  have hbyId : (d.listScope frame name id).2.inspector.handles.byId = d.inspector.handles.byId := by
    simp only [listScope, Handles.setFrame_byId, Handles.setPath_byId]
  refine ⟨⟨(hc.setPath _ _).setFrame _ _, Nat.le_refl _, fun r i _ hr => ?_⟩, rfl, rfl,
    fun _ _ h => absurd h List.not_mem_nil⟩
  rw [hbyId]
  exact hr

omit [Context C] in
theorem spent_listScopes (h : Orderly memory made) (hc : d.inspector.handles.Consistent)
    (frame : Int) {scopes : List Scope} (hscopes : ∀ s ∈ scopes, InReach memory made s.value) :
    Spent memory made d.inspector (d.listScopes frame scopes).2.inspector [] := by
  induction scopes generalizing d with
  | nil => exact .refl hc
  | cons s rest ih =>
    have hregister := Inspector.spent_register h hc (hscopes s List.mem_cons_self)
    have hfirst := hregister.trans (spent_listScope
      (d := { d with inspector := (d.inspector.register s.value).2 }) hregister.grows.consistent
      frame s.name (d.inspector.register s.value).1)
    exact hfirst.trans (ih hfirst.grows.consistent fun s hs => hscopes s (List.mem_cons_of_mem _ hs))

omit [Context C] in
theorem spent_exceptionValue (hc : d.inspector.handles.Consistent) (t : ThreadId) (e : Exception) :
    Spent memory made d.inspector (d.exceptionValue t e).2.inspector [] := by
  unfold exceptionValue
  split
  · exact .refl hc
  · simp only [Inspector.makeException, Inspector.makeAll_eq, Inspector.make, Nat.add_assoc]
    exact Inspector.spent_made hc (Nat.le_add_right _ _)

omit [Context C] in
theorem spent_scopes (h : Orderly (d.inspector.held d.frames.held) d.inspector.made)
    (hc : d.inspector.handles.Consistent) (frame : Int) :
    Spent (d.inspector.held d.frames.held) d.inspector.made d.inspector
      (d.scopes frame).2.inspector (d.scopesUses frame) := by
  cases hknown : d.frames.get? frame with
  | none =>
    simp only [scopes, scopesUses, hknown]
    exact .refl hc
  | some known =>
    have hheld : ∀ v ∈ d.frames.held, InReach (d.inspector.held d.frames.held) d.inspector.made v :=
      fun v hv => Or.inl (.held (List.mem_append_left _ hv))
    have hscopes : ∀ s ∈ known.frame.scopes,
        InReach (d.inspector.held d.frames.held) d.inspector.made s.value :=
      fun s hs => hheld _ (mem_held_of_scope hknown (List.mem_map_of_mem hs))
    simp only [scopes, scopesUses, hknown]
    by_cases htop : known.top = true
    · rw [if_pos htop, if_pos htop]
      cases he : d.exceptionOf? known.thread with
      | none =>
        simp only [listException, exceptionUses, he]
        exact spent_listScopes h hc frame hscopes
      | some e =>
        have hvalue : InReach (d.inspector.held d.frames.held) d.inspector.made
            (d.exceptionValue known.thread e).1 := by
          rcases exceptionValue_cases d known.thread e with ⟨v, hv, heq⟩ | ⟨hidentity, _⟩
          · rw [heq]
            exact hheld v (mem_held_of_exception hv)
          · exact Or.inr ⟨_, Nat.le_add_right _ _, hidentity⟩
        have hmade : Spent (d.inspector.held d.frames.held) d.inspector.made d.inspector
            (d.exceptionValue known.thread e).2.inspector [] := spent_exceptionValue hc known.thread e
        have hpin := hmade.trans (Inspector.spent_pin h hmade.grows.consistent hvalue)
        simp only [listException, exceptionUses, he]
        have hlisted := hpin.trans (spent_listScope
          (d := { (d.exceptionValue known.thread e).2 with
            inspector := ((d.exceptionValue known.thread e).2.inspector.pin
              (d.exceptionValue known.thread e).1).2 }) hpin.grows.consistent frame "Exception"
          ((d.exceptionValue known.thread e).2.inspector.pin
            (d.exceptionValue known.thread e).1).1)
        have hall := hlisted.trans (spent_listScopes h hlisted.grows.consistent frame hscopes)
        simpa using hall
    · rw [if_neg htop, if_neg htop]
      exact spent_listScopes h hc frame hscopes

/-- An evaluation fails and changes nothing, or it gives a value in a frame of a thread that waits. -/
theorem evaluate_cases (d : Debugger C) (frame : Option Int) (expression : String) :
    (∃ problem, d.evaluate frame expression = (.error problem, d) ∧
      d.evaluateUses frame expression = []) ∨
    ∃ id known s v made, frame = some id ∧ d.frames.get? id = some known ∧
      d.coordinator.suspended.get? known.thread = some s ∧
      Context.evaluate s.context known.index expression d.inspector.made = (.ok v, made) := by
  cases frame with
  | none => exact Or.inl ⟨_, rfl, rfl⟩
  | some id =>
    cases hknown : d.frames.get? id with
    | none =>
      exact Or.inl ⟨.unknownFrame id, evaluate_of_unknown hknown expression,
        by simp [evaluateUses, hknown]⟩
    | some known =>
      cases hs : d.coordinator.suspended.get? known.thread with
      | none =>
        exact Or.inl ⟨.unknownThread known.thread, by simp only [evaluate, hknown, hs],
          by simp [evaluateUses, hknown, hs]⟩
      | some s =>
        cases hv : Context.evaluate s.context known.index expression d.inspector.made with
        | mk result made =>
          cases result with
          | ok v => exact Or.inr ⟨id, known, s, v, made, rfl, hknown, hs, hv⟩
          | error failure =>
            left
            cases failure with
            | failed problem =>
              exact ⟨.evaluation problem, by simp only [evaluate, hknown, hs, hv],
                by simp [evaluateUses, hknown, hs, hv]⟩
            | crashed =>
              exact ⟨.panicked "evaluate", by simp only [evaluate, hknown, hs, hv],
                by simp [evaluateUses, hknown, hs, hv]⟩

theorem spent_evaluate {room : Nat} (hroom : 0 < room) (hpins : d.inspector.pins.Ageless room)
    (hc : d.inspector.handles.Consistent) {known : KnownFrame} {s : Suspension C} {v : Value}
    {frame : Int} {expression : String} (hknown : d.frames.get? frame = some known)
    (hs : d.coordinator.suspended.get? known.thread = some s)
    (hv : Context.evaluate s.context known.index expression d.inspector.made = (.ok v, made))
    (hmade : d.inspector.made ≤ made) (h : Orderly (v :: d.inspector.held d.frames.held) made) :
    Spent (v :: d.inspector.held d.frames.held) made d.inspector
      (d.evaluate (some frame) expression).2.inspector
      (d.evaluateUses (some frame) expression) := by
  have hoffset : Spent (v :: d.inspector.held d.frames.held) made d.inspector
      { d.inspector with made } [] := Inspector.spent_made hc hmade
  have hreach : InReach (v :: d.inspector.held d.frames.held) made v :=
    Or.inl (.held List.mem_cons_self)
  have hlisted := Inspector.listed_row { d.inspector with made } "result" v
  have hrow := Inspector.spent_row h hoffset.grows.consistent (Nat.le_refl made) hreach "result"
  have hrowPins : (({ d.inspector with made } : Inspector).row "result" v).2.pins.Ageless room := by
    rw [hrow.pins]
    exact hpins.useAll _ _
  simp only [evaluate, evaluateUses, Option.bind_some, hknown, hs, hv]
  refine hoffset.trans (hrow.trans (Inspector.spent_keep hrowPins hrow.grows.consistent ?_))
  -- A handle under which nothing is pinned is that of the value itself.
  intro hnone hid
  cases htable : v.isTable with
  | true =>
    obtain ⟨p, hp, _⟩ := hlisted.pinned_table htable hpins hroom hid
    rw [hnone] at hp
    contradiction
  | false =>
    obtain ⟨hid, hafter⟩ := Prod.mk.inj (hlisted.eq_register htable hid)
    rw [hid, hafter]
    exact ⟨hreach, Handles.get?_register_self hc v.identity⟩

/-! ## Pins keep their handles -/

/-- What becomes of pins and of their handles. -/
structure Turnover (d d' : Debugger C) (us : List PinUse) : Prop where
  consistent : d'.inspector.handles.Consistent
  pins : d'.inspector.pins = d.inspector.pins.useAll d.inspector.now us
  kept : ∀ id, ∀ v ∈ d.inspector.pins.values,
    d.inspector.handles.byId.get? id = some v.identity →
      d'.inspector.handles.byId.get? id = some v.identity
  puts : ∀ id v, .put id v ∈ us → d'.inspector.handles.byId.get? id = some v.identity ∧
    ∀ w ∈ d.inspector.pins.values, v.identity = w.identity → v = w

variable {d' : Debugger C} {us : List PinUse}

omit [Context C] in
theorem Turnover.of_eq (hc : d.inspector.handles.Consistent)
    (hpins : d'.inspector.pins = d.inspector.pins)
    (hhandles : d'.inspector.handles = d.inspector.handles) : Turnover d d' [] :=
  ⟨hhandles ▸ hc, hpins, fun _ _ _ h => hhandles ▸ h, fun _ _ h => absurd h List.not_mem_nil⟩

omit [Context C] in
theorem Turnover.of_spent (h : Orderly memory made) (hsub : d.inspector.pins.values ⊆ memory)
    (hspent : Spent memory made d.inspector d'.inspector us) : Turnover d d' us where
  consistent := hspent.grows.consistent
  pins := hspent.pins
  kept id v hv := hspent.grows.kept id _ ⟨v, Or.inl (.held (hsub hv)), rfl⟩
  puts id v hv := by
    obtain ⟨hreach, hid⟩ := hspent.puts id v hv
    refine ⟨hid, fun w hw hidentity => ?_⟩
    exact Inspector.eq_of_inReach h (.held (hsub hw)) hreach (congrArg Identity.address hidentity)

omit [Context C] in
/-- Handles of pinned values are not reclaimed. -/
theorem turnover_reclaim {room : Nat} (hc : d.inspector.handles.Consistent)
    (hpins : d.inspector.pins.Ageless room) {outside : List Value}
    (hd' : d'.inspector = (d.inspector.reclaim outside).2) : Turnover d d' [] := by
  have hpurge := PinCache.purge_eq_self hpins.sound hpins.lifetime d.inspector.now
  rw [Inspector.reclaim, hpurge] at hd'
  constructor
  · rw [hd']
    exact (Handles.without_reclaim hc _).consistent
  · rw [hd']
    rfl
  · intro id v hv hid
    rw [hd']
    refine (Handles.get?_reclaim hc _ id).trans (Option.filter_eq_some_iff.mpr ⟨hid, ?_⟩)
    exact Value.contains_holding (List.mem_append_right _ hv)
  · exact fun _ _ h => absurd h List.not_mem_nil

theorem turnover_undergo {room : Nat} (hroom : 0 < room) (hc : d.inspector.handles.Consistent)
    (hpins : d.inspector.pins.Ageless room) {e : Happening C} (htidy : d.Tidy e)
    (hdetach : e ≠ .event .detach) : Turnover d (d.undergo e) (d.uses e) := by
  cases hinspects : e.inspects with
  | false =>
    have huses : d.uses e = [] := by
      cases e with
      | passTo | takeOver => rfl
      | event e => cases e <;> first | rfl | contradiction
    rw [huses]
    exact .of_eq hc (congrArg Inspector.pins (undergo_inspector hinspects))
      (congrArg Inspector.handles (undergo_inspector hinspects))
  | true =>
    cases e with
    | takeOver => contradiction
    | passTo => exact .of_eq hc rfl rfl
    | event e =>
      cases e with
      | scopes frame =>
        exact .of_spent htidy (List.subset_append_right _ _) (spent_scopes htidy hc frame)
      | children p id filter start count =>
        exact .of_spent htidy (List.subset_append_right _ _)
          (Inspector.spent_children htidy hc id filter start count)
      | evaluate frame expression =>
        show Turnover d (d.evaluate frame expression).2 (d.evaluateUses frame expression)
        rcases evaluate_cases d frame expression with
          ⟨problem, hfails, hnothing⟩ | ⟨frame, known, s, v, made, rfl, hknown, hs, hv⟩
        · rw [hfails, hnothing]
          exact .of_eq hc rfl rfl
        · obtain ⟨hmade, horderly⟩ := htidy known s v made hknown hs hv
          exact .of_spent horderly
            (fun w hw => List.mem_cons_of_mem _ (List.mem_append_right _ hw))
            (spent_evaluate hroom hpins hc hknown hs hv hmade horderly)
      | reclaim p => exact turnover_reclaim hc hpins rfl
      | _ => contradiction

/-- Every pin is under the handle of its value, and pins do not age. -/
structure Assured (room : Nat) (d : Debugger C) : Prop where
  consistent : d.inspector.handles.Consistent
  pins : d.inspector.pins.Ageless room
  paired : d.inspector.Paired

omit [Context C] in
theorem Turnover.assured {room : Nat} (h : Turnover d d' us) (hd : Assured room d) :
    Assured room d' := by
  refine ⟨h.consistent, h.pins ▸ hd.pins.useAll _ _, fun id p hp => ?_⟩
  rw [h.pins] at hp
  rcases hd.pins.get?_useAll hp with hput | hp
  · exact (h.puts id _ hput).1
  · exact h.kept id _ (PinCache.mem_values_iff.mpr ⟨id, p, hp, rfl⟩) (hd.paired id p hp)

theorem Assured.undergo {room : Nat} (hroom : 0 < room) (h : Assured room d) {e : Happening C}
    (htidy : d.Tidy e) : Assured room (d.undergo e) := by
  by_cases hdetach : e = .event .detach
  · subst hdetach
    refine ⟨h.consistent.clear, h.pins.clear, fun id p hp => ?_⟩
    have hnone : (d.undergo (.event .detach)).inspector.pins.entries.get? id = none := rfl
    rw [hnone] at hp
    contradiction
  · exact (turnover_undergo hroom h.consistent h.pins htidy hdetach).assured h

theorem Assured.through {room : Nat} (hroom : 0 < room) (h : Assured room d)
    {hs : List (Happening C)} (htidy : TidyAlong d hs) : Assured room (d.through hs) := by
  induction hs generalizing d with
  | nil => exact h
  | cons e hs ih => exact ih (h.undergo hroom htidy.1) htidy.2

omit [Context C] in
theorem assured_new (o : Options) (hlifetime : o.pinLifetime = none) :
    Assured (max o.pinCapacity 1) (new o : Debugger C) where
  consistent := Handles.consistent_new
  pins := by
    simp only [new, Inspector.new, hlifetime]
    exact PinCache.ageless_new o.pinCapacity
  paired := by simp [Inspector.Paired, new, Inspector.new, PinCache.new]

/-- A pin leads to its value. -/
theorem Assured.resolves {room : Nat} (h : Assured room d) {id : Nat} {p : Pin Value}
    (hp : d.inspector.pins.entries.get? id = some p) (m : Debuggee)
    (hm : Coherent (d.inspector.held (d.held m))) :
    d.inspector.resolve? (d.held m) id = some p.value := by
  have hheld : p.value ∈ d.inspector.held (d.held m) :=
    List.mem_append_right _ (PinCache.mem_values_iff.mpr ⟨id, p, hp, rfl⟩)
  exact Option.bind_eq_some_iff.mpr ⟨_, h.paired id p hp, hm.holding_eq (.held hheld)⟩

/-! ## Results -/

section
variable {room : Nat} {id : Nat} {w : Value} {seen : Finset Nat}

omit [Context C] in
theorem Turnover.newest (h : Turnover d d' us) (hd : Assured room d)
    (hw : d.inspector.pins.Newest id w seen) (hroom : (seen ∪ usedBesides id us).card < room) :
    d'.inspector.pins.Newest id w (seen ∪ usedBesides id us) := by
  rw [h.pins]
  refine hw.useAll hd.pins (fun v hput => ?_) hroom
  -- Another value would have another handle.
  obtain ⟨p, hp, hvalue⟩ := hw.entry
  have hheld : w ∈ d.inspector.pins.values := PinCache.mem_values_iff.mpr ⟨id, p, hp, hvalue⟩
  have hkept := h.kept id w hheld (hvalue ▸ hd.paired id p hp)
  obtain ⟨hid, hsame⟩ := h.puts id v hput
  exact hsame w hheld (Option.some.inj (hid.symm.trans hkept))

/-- A pin lasts through uses of fewer others than there is room for. -/
theorem newest_through (hd : Assured room d) (hw : d.inspector.pins.Newest id w seen)
    {hs : List (Happening C)} (htidy : TidyAlong d hs) (hdetach : .event .detach ∉ hs)
    (hroom : (seen ∪ usedBesides id (d.usesAlong hs)).card < room) :
    (d.through hs).inspector.pins.Newest id w (seen ∪ usedBesides id (d.usesAlong hs)) := by
  induction hs generalizing d seen with
  | nil => exact hw.mono Finset.subset_union_left
  | cons e hs ih =>
    have hpos : 0 < room := by omega
    rw [usesAlong, PinCache.usedBesides_append, ← Finset.union_assoc] at hroom ⊢
    have hturnover := turnover_undergo hpos hd.consistent hd.pins htidy.1
      (fun he => hdetach (he ▸ List.mem_cons_self))
    have hfirst := hturnover.newest hd hw
      (Nat.lt_of_le_of_lt (Finset.card_le_card Finset.subset_union_left) hroom)
    exact ih (hturnover.assured hd) hfirst htidy.2
      (fun he => hdetach (List.mem_cons_of_mem _ he)) hroom

/-- A result with a handle is pinned under it, and nothing has been used since. -/
theorem newest_evaluate (hroom : 0 < room) (hd : Assured room d) {known : KnownFrame}
    {s : Suspension C} {v : Value} {frame : Int} {expression : String}
    (hknown : d.frames.get? frame = some known)
    (hs : d.coordinator.suspended.get? known.thread = some s)
    (hv : Context.evaluate s.context known.index expression d.inspector.made = (.ok v, made))
    (h : Orderly (v :: d.inspector.held d.frames.held) made)
    {row : Variable} (hrow : (d.evaluate (some frame) expression).1 = .ok row)
    (hreference : row.reference ≠ 0) :
    (d.evaluate (some frame) expression).2.inspector.pins.Newest row.reference
      (Inspector.listedValue made v) ∅ := by
  have hlisted := Inspector.listed_row { d.inspector with made } "result" v
  have hreach : InReach (v :: d.inspector.held d.frames.held) made v :=
    Or.inl (.held List.mem_cons_self)
  have hspent := Inspector.spent_row (s := { d.inspector with made }) h hd.consistent
    (Nat.le_refl made) hreach "result"
  simp only [evaluate, hknown, hs, hv, Except.ok.injEq] at hrow ⊢
  subst hrow
  refine Inspector.newest_keep_listed hlisted h (.held List.mem_cons_self) ?_ hd.paired
    hd.consistent hd.pins hroom hreference ?_
  · exact fun w hw => List.mem_cons_of_mem _ (List.mem_append_right _ hw)
  · rw [hspent.pins]
    exact hd.pins.useAll _ _

end

end

theorem through_append (d : Debugger C) (hs hs' : List (Happening C)) :
    d.through (hs ++ hs') = (d.through hs).through hs' := List.foldl_append

theorem TidyAlong.append {d : Debugger C} {hs later : List (Happening C)}
    (h : TidyAlong d (hs ++ later)) : TidyAlong d hs ∧ TidyAlong (d.through hs) later := by
  induction hs generalizing d with
  | nil => exact ⟨trivial, h⟩
  | cons e hs ih => exact ⟨⟨h.1, (ih h.2).1⟩, (ih h.2).2⟩

/-- Along every history in tidy memory, while pins do not age: every pinned value is what its handle
leads to.  So when an evaluation gives a row with a handle, the handle leads to the same value, that
of the result or the array of the rows of a table, right then and as long as fewer others than there
is room for have been used since, whatever else happened but the end of the session. -/
theorem results_last (o : Options) (hlifetime : o.pinLifetime = none) (hs : List (Happening C))
    (htidy : TidyAlong (new o) hs) :
    let d := (new o : Debugger C).through hs
    (∀ id p, d.inspector.pins.entries.get? id = some p → ∀ m,
      Coherent (d.inspector.held (d.held m)) →
        d.inspector.resolve? (d.held m) id = some p.value) ∧
    ∀ before frame expression later row,
      hs = before ++ .event (.evaluate frame expression) :: later →
      let first := (new o : Debugger C).through before
      let second := (first.evaluate frame expression).2
      (first.evaluate frame expression).1 = .ok row → row.reference ≠ 0 →
      .event .detach ∉ later →
      (usedBesides row.reference (second.usesAlong later)).card < max o.pinCapacity 1 →
      ∃ id known s v made, frame = some id ∧ first.frames.get? id = some known ∧
        first.coordinator.suspended.get? known.thread = some s ∧
        Context.evaluate s.context known.index expression first.inspector.made = (.ok v, made) ∧
        (∀ m, Coherent (second.inspector.held (second.held m)) →
          second.inspector.resolve? (second.held m) row.reference =
            some (Inspector.listedValue made v)) ∧
        ∀ m, Coherent (d.inspector.held (d.held m)) →
          d.inspector.resolve? (d.held m) row.reference =
            some (Inspector.listedValue made v) := by
  intro d
  have hpos : 0 < max o.pinCapacity 1 := by omega
  have hnew : Assured (max o.pinCapacity 1) (new o : Debugger C) := assured_new o hlifetime
  have hd : Assured (max o.pinCapacity 1) d := hnew.through hpos htidy
  refine ⟨fun id p hp m hm => hd.resolves hp m hm, ?_⟩
  intro before frame expression later row hsplit first second hrow hreference hdetach hfew
  rw [hsplit] at htidy
  obtain ⟨hbefore, hevaluate, hlater⟩ := htidy.append
  have hfirst : Assured (max o.pinCapacity 1) first := hnew.through hpos hbefore
  rcases evaluate_cases first frame expression with
    ⟨problem, hfails, _⟩ | ⟨id, known, s, v, made, rfl, hknown, hs, hv⟩
  · rw [hfails] at hrow
    contradiction
  have horderly := (hevaluate known s v made hknown hs hv).2
  have hnewest : second.inspector.pins.Newest row.reference (Inspector.listedValue made v) ∅ :=
    newest_evaluate hpos hfirst hknown hs hv horderly hrow hreference
  have hsecond : Assured (max o.pinCapacity 1) second := hfirst.undergo hpos hevaluate
  have hend : d = second.through later := by
    simp only [d, hsplit, through_append]
    rfl
  have hlast := newest_through hsecond hnewest hlater hdetach (by rwa [Finset.empty_union])
  rw [← hend] at hlast
  refine ⟨id, known, s, v, made, rfl, hknown, hs, hv, fun m hm => ?_, fun m hm => ?_⟩
  · obtain ⟨p, hp, hvalue⟩ := hnewest.entry
    exact hvalue ▸ hsecond.resolves hp m hm
  · obtain ⟨p, hp, hvalue⟩ := hlast.entry
    exact hvalue ▸ hd.resolves hp m hm

/-- What happens after a result: another one, which is kept beside it, the thread goes on, and
handles are reclaimed. -/
def afterResult : List (Happening DescribedThread) :=
  [.event (.evaluate (some 1) "list"), .event (.resume 10), .takeOver,
    .event (.reclaim ⟨[], fun _ => [], [], []⟩)]

theorem results_last_resumed :
    let first := (new ⟨true, some "s", 2, none⟩ : Debugger DescribedThread).through beforeScopes
    let d := (new ⟨true, some "s", 2, none⟩ : Debugger DescribedThread).through
      (beforeScopes ++ .event (.evaluate (some 1) "list") :: afterResult)
    (∃ row, (first.evaluate (some 1) "list").1 = .ok row ∧ row.reference = 1) ∧
      ∀ m, Coherent (d.inspector.held (d.held m)) →
        d.inspector.resolve? (d.held m) 1 = some (freshList 0) := by
  intro first d
  have hmemory : ∀ made held, held ⊆ [freshList 0, freshList 2, localScope] → 4 ≤ made →
      Orderly held made := by
    intro made held hsub hmade
    have hall : ∀ v, Within held v → v ∈ [freshList 0, freshList 2, localScope, localText] ++
        (freshList 0).parts ++ (freshList 2).parts := by
      intro v hv
      have hv := hv.mono hsub
      simp [Value.within_cons_iff, Value.not_within_nil, localScope, localText, freshList,
        Value.parts, Value.shape, Shape.parts] at hv ⊢
      tauto
    have hfour : Orderly held 4 := Value.orderly_of_listed _ hall (by decide) (by decide)
    exact hfour.later hmade
  have hempty : Orderly [freshList 0, localScope] 2 := by
    refine Value.orderly_of_listed ([freshList 0, localScope, localText] ++ (freshList 0).parts) ?_
      (by decide) (by decide)
    intro v hv
    simp [Value.within_cons_iff, Value.not_within_nil, localScope, localText, freshList,
      Value.parts, Value.shape, Shape.parts] at hv ⊢
    tauto
  have htidy : TidyAlong (new ⟨true, some "s", 2, none⟩ : Debugger DescribedThread)
      (beforeScopes ++ .event (.evaluate (some 1) "list") :: afterResult) := by
    refine ⟨trivial, trivial, trivial, trivial, trivial, ?_, ?_, trivial, trivial, trivial, trivial⟩
    · intro known s v made hknown hs hv
      cases hknown
      cases hs
      cases hv
      exact ⟨by decide, hempty⟩
    · intro known s v made hknown hs hv
      cases hknown
      cases hs
      cases hv
      exact ⟨by decide, hmemory 4 [freshList 2, localScope, freshList 0] (by simp) (by decide)⟩
  obtain ⟨_, hresults⟩ := results_last ⟨true, some "s", 2, none⟩ rfl _ htidy
  obtain ⟨row, hrow, hreference⟩ :
      ∃ row, (first.evaluate (some 1) "list").1 = .ok row ∧ row.reference = 1 := ⟨_, rfl, rfl⟩
  have hfew : (usedBesides row.reference
      ((first.evaluate (some 1) "list").2.usesAlong afterResult)).card < max 2 1 := by
    rw [hreference]
    decide
  obtain ⟨_, _, _, v, made, hframe, hknown, hs, hv, _, hlast⟩ :=
    hresults beforeScopes (some 1) "list" afterResult row rfl hrow (by rw [hreference]; decide)
      (by simp [afterResult]) hfew
  cases hframe
  cases hknown
  cases hs
  cases hv
  rw [hreference] at hlast
  exact ⟨⟨row, hrow, hreference⟩, hlast⟩

end Debugger

end DebugAdapter
