import DebugAdapter.Proofs.Debugger.Frames
import DebugAdapter.Proofs.Value.Listing

/-!
# Scopes along a history

The tables of known frames hold what the scopes of a waiting thread show, the exception it stopped
for included, so none of it goes while the thread waits. `Stands` says that the listed scopes of a
frame are what they were: the frame is known, shows the same values, and the rows lead to them. The
scopes stand once they are listed (`stands_scopes`), and through whatever else happens until the
thread is released (`Stands.undergo`).

Memory is the debuggee's. All that is asked of it is `Lawful`: where values get handles, there is
one value at an address, and the adapter's own values are below the next free offset.
-/

namespace DebugAdapter

open Value (Coherent Orderly)

variable {C : Type} [Context C]

namespace Debugger

/-- The exception that a thread stopped for, as a scope. -/
def shownException (d : Debugger C) (t : ThreadId) : List (String × Value) :=
  (d.exceptionOf? t).toList.map fun e => ("Exception", (d.exceptionValue t e).1)

def shownScopes (scopes : List Scope) : List (String × Value) :=
  scopes.map fun s => (s.name, s.value)

/-- What the scopes of a frame show, under their names. -/
def shown (d : Debugger C) (known : KnownFrame) : List (String × Value) :=
  (if known.top then d.shownException known.thread else []) ++ shownScopes known.frame.scopes

/-- The rows lead to the values, by their handles. -/
def Lists (s : Inspector) : List ScopeRow → List (String × Value) → Prop :=
  List.Forall₂ fun row x =>
    row.name = x.1 ∧ s.handles.byId.get? row.reference = some x.2.identity

/-- The memory that a request gives handles in is orderly. -/
def Lawful (d : Debugger C) : Happening C → Prop
  | .event (.scopes _) => Orderly d.frames.held d.inspector.made
  | .event (.children p _ _ _ _) => Orderly (d.inspector.held (d.held p)) d.inspector.made
  | .event (.evaluate (some frame) expression) =>
    ∀ known s v made, d.frames.get? frame = some known →
      d.coordinator.suspended.get? known.thread = some s →
      Context.evaluate s.context known.index expression d.inspector.made = (.ok v, made) →
      d.inspector.made ≤ made ∧ Orderly (v :: d.frames.held) made
  | _ => True

/-- Everything is lawful where it happens. -/
def LawfulAlong : Debugger C → List (Happening C) → Prop
  | _, [] => True
  | d, e :: hs => d.Lawful e ∧ LawfulAlong (d.undergo e) hs

theorem Lists.and {s : Inspector} {rows : List ScopeRow} {xs : List (String × Value)}
    (h : Lists s rows xs) {P : String × Value → Prop} (hxs : ∀ x ∈ xs, P x) :
    List.Forall₂ (fun row x =>
      P x ∧ row.name = x.1 ∧ s.handles.byId.get? row.reference = some x.2.identity) rows xs :=
  ((List.forall₂_and_left _ _).mpr ⟨hxs, h.flip⟩).flip

/-- Rows keep leading to values whose handles are kept. -/
theorem Lists.mono {s s' : Inspector} {tracked : Identity → Prop}
    (h : Inspector.Grows tracked s s') {rows : List ScopeRow} {xs : List (String × Value)}
    (hxs : ∀ x ∈ xs, tracked x.2.identity) (hlists : Lists s rows xs) : Lists s' rows xs :=
  (hlists.and hxs).imp fun row _ ⟨hx, hname, hget⟩ => ⟨hname, h.kept row.reference _ hx hget⟩

/-- The allocation is that of a value that the known frames hold. -/
def Shows (d : Debugger C) (i : Identity) : Prop := ∃ v ∈ d.frames.held, v.identity = i

omit [Context C] in
theorem covers_shows (d : Debugger C) {held : List Value} (hsub : d.frames.held ⊆ held) :
    Inspector.Covers held d.Shows := by
  rintro _ ⟨v, hv, rfl⟩
  exact ⟨v, .held (hsub hv), rfl⟩

/-! ## Listing scopes -/

/-- Rows are added for the values, and handles are kept. -/
structure Adds (tracked : Identity → Prop) (d : Debugger C) (r : List ScopeRow × Debugger C)
    (xs : List (String × Value)) : Prop where
  grows : Inspector.Grows tracked d.inspector r.2.inspector
  lists : (∀ x ∈ xs, tracked x.2.identity) → Lists r.2.inspector r.1 xs

section
variable {d : Debugger C} {tracked : Identity → Prop} {frame : Int}
omit [Context C]

theorem Adds.nil (hc : d.inspector.handles.Consistent) : Adds tracked d ([], d) [] :=
  ⟨.refl hc, fun _ => .nil⟩

theorem Adds.append {r r' : List ScopeRow × Debugger C} {xs ys : List (String × Value)}
    (h : Adds tracked d r xs) (h' : Adds tracked r.2 r' ys) :
    Adds tracked d (r.1 ++ r'.1, r'.2) (xs ++ ys) := by
  refine ⟨h.grows.trans h'.grows, fun htracked => ?_⟩
  obtain ⟨hxs, hys⟩ := List.forall_mem_append.mp htracked
  exact List.rel_append ((h.lists hxs).mono h'.grows hxs) (h'.lists hys)

/-- A scope is listed by the handle of its value, whether it is pinned or not. -/
theorem adds_listScope (frame : Int) {s : Inspector} {v : Value} (hc : d.inspector.handles.Consistent)
    (hhandles : s.handles = (d.inspector.handles.register v.identity).2)
    (hmade : d.inspector.made ≤ s.made) (hv : Inspector.Fits tracked v.identity) (name : String) :
    let r := ({ d with inspector := s }).listScope frame name
      (d.inspector.handles.register v.identity).1
    Adds tracked d ([r.1], r.2) [(name, v)] := by
  intro r
  have hbyId : r.2.inspector.handles.byId = (d.inspector.handles.register v.identity).2.byId := by
    simp only [r, listScope, hhandles, Handles.setFrame_byId, Handles.setPath_byId]
  have hgrows := Inspector.grows_register hc hv
  refine ⟨⟨?_, hmade, hbyId ▸ hgrows.kept⟩, fun _ => .cons ⟨rfl, ?_⟩ .nil⟩
  · simp only [r, listScope, hhandles]
    exact ((Handles.consistent_register hc _).setPath _ _).setFrame _ _
  · rw [hbyId]
    exact Handles.get?_register_self hc v.identity

theorem adds_listScopes (frame : Int) (hc : d.inspector.handles.Consistent) {scopes : List Scope}
    (hfits : ∀ x ∈ shownScopes scopes, Inspector.Fits tracked x.2.identity) :
    Adds tracked d (d.listScopes frame scopes) (shownScopes scopes) := by
  induction scopes generalizing d with
  | nil => exact .nil hc
  | cons s rest ih =>
    have hfirst := adds_listScope frame (s := (d.inspector.register s.value).2) hc rfl
      (Nat.le_refl _) (hfits _ List.mem_cons_self) s.name
    exact hfirst.append (ih hfirst.grows.consistent fun x hx => hfits x (List.mem_cons_of_mem _ hx))

/-- The value that shows an exception is there, or it is made at an offset that is free. -/
theorem exceptionValue_cases (d : Debugger C) (t : ThreadId) (e : Exception) :
    (∃ v, d.frames.exceptions.get? t = some v ∧ d.exceptionValue t e = (v, d)) ∨
      (d.exceptionValue t e).1.identity =
        .first adapterRegion (d.inspector.made + (Inspector.exceptionFields e).length) ∧
      (d.exceptionValue t e).2.inspector.handles = d.inspector.handles ∧
      d.inspector.made ≤ (d.exceptionValue t e).2.inspector.made ∧
      (d.exceptionValue t e).2.frames.exceptions.get? t = some (d.exceptionValue t e).1 := by
  cases hv : d.frames.exceptions.get? t with
  | some v =>
    refine Or.inl ⟨v, rfl, ?_⟩
    simp only [exceptionValue, hv]
  | none =>
    right
    simp only [exceptionValue, hv, Inspector.makeException, Inspector.makeAll_eq, Inspector.make,
      List.length_map, Table.get?_insert, if_true]
    exact ⟨rfl, trivial, by omega, trivial⟩

theorem adds_listException (hc : d.inspector.handles.Consistent) {t : ThreadId}
    (hfits : ∀ x ∈ d.shownException t, Inspector.Fits tracked x.2.identity) :
    Adds tracked d (d.listException frame t) (d.shownException t) := by
  cases he : d.exceptionOf? t with
  | none =>
    simp only [listException, shownException, he]
    exact .nil hc
  | some e =>
    have hmade : Inspector.Grows tracked d.inspector (d.exceptionValue t e).2.inspector := by
      rcases exceptionValue_cases d t e with ⟨v, _, heq⟩ | ⟨_, hhandles, hmade, _⟩
      · rw [heq]
        exact .refl hc
      · exact .of_handles_eq hc hhandles hmade
    have hmem : ("Exception", (d.exceptionValue t e).1) ∈ d.shownException t := by
      simp [shownException, he]
    have hlisted := adds_listScope (d := (d.exceptionValue t e).2) frame
      (s := ((d.exceptionValue t e).2.inspector.pin (d.exceptionValue t e).1).2)
      hmade.consistent rfl (Nat.le_refl _) (hfits _ hmem) "Exception"
    simp only [listException, shownException, he]
    exact ⟨hmade.trans hlisted.grows, hlisted.lists⟩

theorem adds_scopes (hc : d.inspector.handles.Consistent) {known : KnownFrame}
    (hknown : d.frames.get? frame = some known)
    (hfits : ∀ x ∈ d.shown known, Inspector.Fits tracked x.2.identity) :
    Adds tracked d (d.scopes frame) (d.shown known) := by
  obtain ⟨hfitsFirst, hfitsRest⟩ := List.forall_mem_append.mp hfits
  have hfirst : Adds tracked d (if known.top then d.listException frame known.thread else ([], d))
      (if known.top then d.shownException known.thread else []) := by
    by_cases htop : known.top = true
    · rw [if_pos htop] at hfitsFirst
      rw [if_pos htop, if_pos htop]
      exact adds_listException hc hfitsFirst
    · rw [if_neg htop, if_neg htop]
      exact .nil hc
  have hrest := adds_listScopes frame hfirst.grows.consistent hfitsRest
  simp only [scopes, hknown]
  exact hfirst.append hrest

/-! ## What known frames hold -/

theorem mem_held_of_scope {known : KnownFrame} (hknown : d.frames.get? frame = some known)
    {x : String × Value} (hx : x ∈ shownScopes known.frame.scopes) : x.2 ∈ d.frames.held := by
  obtain ⟨s, hs, rfl⟩ := List.mem_map.mp hx
  refine List.mem_append_left _ (List.mem_flatMap.mpr ⟨known, ?_, List.mem_map_of_mem hs⟩)
  exact Table.mem_values.mpr ⟨frame, hknown⟩

theorem mem_held_of_exception {t : ThreadId} {v : Value}
    (hv : d.frames.exceptions.get? t = some v) : v ∈ d.frames.held :=
  List.mem_append_right _ (Table.mem_values.mpr ⟨t, hv⟩)

theorem mem_shownException {t : ThreadId} {x : String × Value} (hx : x ∈ d.shownException t) :
    ∃ e, d.exceptionOf? t = some e ∧ x = ("Exception", (d.exceptionValue t e).1) := by
  obtain ⟨e, he, rfl⟩ := List.mem_map.mp hx
  exact ⟨e, Option.mem_toList.mp he, rfl⟩

theorem mem_shown {known : KnownFrame} {x : String × Value} (hx : x ∈ d.shown known) :
    (known.top = true ∧ x ∈ d.shownException known.thread) ∨
      x ∈ shownScopes known.frame.scopes := by
  refine (List.mem_append.mp hx).imp_left fun hx => ?_
  split at hx
  · exact ⟨‹_›, hx⟩
  · contradiction

/-- What a frame shows is held by the known frames, but for an exception that is still to be shown:
that is a value about to be made. -/
theorem exists_offset (d : Debugger C) {known : KnownFrame}
    (hknown : d.frames.get? frame = some known) :
    ∃ offset, d.inspector.made ≤ offset ∧ ∀ x ∈ d.shown known,
      d.Shows x.2.identity ∨ x.2.identity = .first adapterRegion offset := by
  cases he : d.exceptionOf? known.thread with
  | none =>
    refine ⟨d.inspector.made, Nat.le_refl _, fun x hx => Or.inl ?_⟩
    rcases mem_shown hx with ⟨_, hx⟩ | hx
    · obtain ⟨e, he', _⟩ := mem_shownException hx
      rw [he] at he'
      contradiction
    · exact ⟨x.2, mem_held_of_scope hknown hx, rfl⟩
  | some e =>
    refine ⟨d.inspector.made + (Inspector.exceptionFields e).length, Nat.le_add_right _ _, ?_⟩
    intro x hx
    rcases mem_shown hx with ⟨_, hx⟩ | hx
    · obtain ⟨e', he', rfl⟩ := mem_shownException hx
      rw [he] at he'
      cases he'
      rcases exceptionValue_cases d known.thread e with ⟨v, hv, heq⟩ | ⟨hidentity, _⟩
      · rw [heq]
        exact Or.inl ⟨v, mem_held_of_exception hv, rfl⟩
      · exact Or.inr hidentity
    · exact Or.inl ⟨x.2, mem_held_of_scope hknown hx, rfl⟩

/-- In orderly memory the values of a frame get handles without taking any from each other or from
what the known frames hold. -/
theorem adds_scopes_of_orderly (hc : d.inspector.handles.Consistent) {known : KnownFrame}
    (hknown : d.frames.get? frame = some known) (h : Orderly d.frames.held d.inspector.made) :
    Inspector.Grows d.Shows d.inspector (d.scopes frame).2.inspector ∧
      Lists (d.scopes frame).2.inspector (d.scopes frame).1 (d.shown known) := by
  have hcovers := covers_shows d (List.Subset.refl _)
  obtain ⟨offset, hoffset, hshown⟩ := d.exists_offset hknown
  have hfree := Inspector.free_of_orderly hcovers h
  have hfits : ∀ x ∈ d.shown known, Inspector.Fits
      (fun i => d.Shows i ∨ i = .first adapterRegion offset) x.2.identity := by
    rintro x hx i (hi | rfl) haddress
    · rcases hshown x hx with ⟨v, hv, hxv⟩ | hxnew
      · rw [← hxv] at haddress ⊢
        exact Inspector.fits_of_coherent hcovers h.coherent (.held hv) i hi haddress
      · rw [hxnew] at haddress ⊢
        exact hfree offset hoffset i hi haddress
    · rcases hshown x hx with hxheld | hxnew
      · exact (hfree offset hoffset _ hxheld haddress.symm).symm
      · exact hxnew.symm
  have hadds := adds_scopes hc hknown hfits
  refine ⟨?_, hadds.lists hshown⟩
  exact ⟨hadds.grows.consistent, hadds.grows.made, fun r i hi => hadds.grows.kept r i (Or.inl hi)⟩

end

/-! ## Scopes that stand -/

omit [Context C] in
/-- What a frame shows depends on what its thread stopped for, and on what shows that. -/
theorem shown_congr {d d' : Debugger C} {known : KnownFrame}
    (hstop : d'.exceptionOf? known.thread = d.exceptionOf? known.thread)
    (hnoted : known.top = true → ∀ e, d.exceptionOf? known.thread = some e →
      d'.frames.exceptions.get? known.thread = some (d.exceptionValue known.thread e).1) :
    d'.shown known = d.shown known := by
  unfold shown
  congr 1
  split
  · rename_i htop
    unfold shownException
    rw [hstop]
    refine List.map_congr_left fun e he => ?_
    have hv := hnoted htop e (Option.mem_toList.mp he)
    simp only [exceptionValue, hv]
  · rfl

omit [Context C] in
/-- Listing the scopes of a frame notes what shows the exception. -/
theorem exceptions_scopes {d : Debugger C} {frame : Int} {known : KnownFrame}
    (hknown : d.frames.get? frame = some known) (htop : known.top = true) {e : Exception}
    (he : d.exceptionOf? known.thread = some e) :
    (d.scopes frame).2.frames.exceptions.get? known.thread =
      some (d.exceptionValue known.thread e).1 := by
  simp only [scopes, hknown, htop, if_true, listScopes_frames, listException, he]
  rcases exceptionValue_cases d known.thread e with ⟨v, hv, heq⟩ | ⟨_, _, _, hv⟩
  · rw [heq]
    exact hv
  · exact hv

/-- The frame is known and shows these values, and the rows lead to them. -/
structure Stands (d : Debugger C) (frame : Int) (known : KnownFrame) (rows : List ScopeRow)
    (values : List (String × Value)) : Prop where
  consistent : d.inspector.handles.Consistent
  found : d.frames.get? frame = some known
  noted : known.top = true → ∀ e, d.exceptionOf? known.thread = some e →
    ∃ v, d.frames.exceptions.get? known.thread = some v
  shows : d.shown known = values
  lists : Lists d.inspector rows values

omit [Context C] in
theorem stands_scopes {d : Debugger C} {frame : Int} {known : KnownFrame}
    (hc : d.inspector.handles.Consistent) (hknown : d.frames.get? frame = some known)
    (h : Orderly d.frames.held d.inspector.made) :
    Stands (d.scopes frame).2 frame known (d.scopes frame).1 (d.shown known) := by
  obtain ⟨hgrows, hlists⟩ := adds_scopes_of_orderly hc hknown h
  have hstop : (d.scopes frame).2.exceptionOf? known.thread = d.exceptionOf? known.thread := by
    rw [exceptionOf?, (scopes_unmoved d frame).1]
    rfl
  refine ⟨hgrows.consistent, ?_, ?_, ?_, hlists⟩
  · rw [KnownFrames.get?, (scopes_keeps d frame).frames]
    exact hknown
  · intro htop e he
    exact ⟨_, exceptions_scopes hknown htop (hstop ▸ he)⟩
  · exact shown_congr hstop fun htop e he => exceptions_scopes hknown htop he

section
variable {d : Debugger C} {frame : Int} {known : KnownFrame} {rows : List ScopeRow}
  {values : List (String × Value)}

omit [Context C] in
/-- Values that are shown once do not depend on anything but the known frames any more. -/
theorem Stands.held (h : Stands d frame known rows values) (x : String × Value) (hx : x ∈ values) :
    x.2 ∈ d.frames.held := by
  rw [← h.shows] at hx
  rcases mem_shown hx with ⟨htop, hx⟩ | hx
  · obtain ⟨e, he, rfl⟩ := mem_shownException hx
    obtain ⟨v, hv⟩ := h.noted htop e he
    simp only [exceptionValue, hv]
    exact mem_held_of_exception hv
  · exact mem_held_of_scope h.found hx

omit [Context C] in
theorem listScopes_again (hc : d.inspector.handles.Consistent) {scopes : List Scope}
    (h : Lists d.inspector rows (shownScopes scopes)) : (d.listScopes frame scopes).1 = rows := by
  induction scopes generalizing d rows with
  | nil =>
    cases h
    rfl
  | cons s rest ih =>
    cases h with
    | @cons row _ rows _ hrow hrest =>
      obtain ⟨hname, hget⟩ := hrow
      have hregister := Handles.register_of_get? hc _ hget
      simp only [listScopes, Inspector.register, hregister]
      refine congrArg₂ List.cons ?_ (ih ?_ ?_)
      · exact congrArg (ScopeRow.mk · row.reference) hname.symm
      · exact (hc.setPath _ _).setFrame _ _
      · simp only [Lists, listScope, Handles.setFrame_byId, Handles.setPath_byId]
        exact hrest

omit [Context C] in
/-- Scopes that stand are listed as they were. -/
theorem Stands.scopes_eq (h : Stands d frame known rows values) : (d.scopes frame).1 = rows := by
  have hc := h.consistent
  have hlists := h.lists
  rw [← h.shows, shown] at hlists
  have hfound : d.frames.get? frame = some known := h.found
  by_cases htop : known.top = true
  · rw [if_pos htop] at hlists
    simp only [scopes, hfound, htop, if_true]
    cases he : d.exceptionOf? known.thread with
    | none =>
      simp only [shownException, he] at hlists
      simp only [listException, he]
      exact listScopes_again hc hlists
    | some e =>
      obtain ⟨v, hv⟩ := h.noted htop e he
      simp only [shownException, he, exceptionValue, hv] at hlists
      cases hlists with
      | @cons row _ rows _ hrow hrest =>
        obtain ⟨hname, hget⟩ := hrow
        have hregister := Handles.register_of_get? hc _ hget
        simp only [listException, he, exceptionValue, hv, Inspector.pin, Inspector.register,
          hregister]
        refine congrArg₂ List.cons ?_ (listScopes_again ?_ ?_)
        · exact congrArg (ScopeRow.mk · row.reference) hname.symm
        · exact (hc.setPath _ _).setFrame _ _
        · simp only [Lists, listScope, Handles.setFrame_byId, Handles.setPath_byId]
          exact hrest
  · rw [if_neg htop] at hlists
    simp only [scopes, hfound, htop]
    exact listScopes_again hc hlists

theorem Stands.resolves (h : Stands d frame known rows values) (p : Debuggee)
    (hcoherent : Coherent (d.inspector.held (d.held p))) :
    List.Forall₂ (fun row x => row.name = x.1 ∧
      d.inspector.resolve? (d.held p) row.reference = some x.2) rows values := by
  refine (h.lists.and h.held).imp ?_
  rintro row x ⟨hx, hname, hget⟩
  have hmem : x.2 ∈ d.inspector.held (d.held p) :=
    List.mem_append_left _ (List.mem_append_right _ hx)
  exact ⟨hname, Option.bind_eq_some_iff.mpr ⟨_, hget, hcoherent.holding_eq (.held hmem)⟩⟩

/-! ## Whatever else happens -/

omit [Context C] in
theorem grows_keep {tracked : Identity → Prop} {s : Inspector} (hc : s.handles.Consistent) (id : Nat)
    (v : Value) : Inspector.Grows tracked s (keep s id v) := by
  have hhandles : (keep s id v).handles = s.handles ∧ (keep s id v).made = s.made := by
    unfold keep
    split
    · exact ⟨rfl, rfl⟩
    · split
      · rename_i s' hpin
        obtain rfl : (s.pinned? id).2 = s' := by rw [hpin]
        exact ⟨rfl, rfl⟩
      · rename_i s' hpin
        obtain rfl : (s.pinned? id).2 = s' := by rw [hpin]
        exact ⟨rfl, rfl⟩
  exact .of_handles_eq hc hhandles.1 (Nat.le_of_eq hhandles.2.symm)

theorem grows_evaluate (hc : d.inspector.handles.Consistent) {frame : Option Int}
    {expression : String} (hlaw : d.Lawful (.event (.evaluate frame expression))) :
    Inspector.Grows d.Shows d.inspector (d.evaluate frame expression).2.inspector := by
  cases frame with
  | none => exact .refl hc
  | some frame =>
    cases hknown : d.frames.get? frame with
    | none =>
      rw [evaluate_of_unknown hknown]
      exact .refl hc
    | some known =>
      cases hs : d.coordinator.suspended.get? known.thread with
      | none =>
        simp only [evaluate, hknown, hs]
        exact .refl hc
      | some s =>
        simp only [evaluate, hknown, hs]
        split
        · exact .refl hc
        · exact .refl hc
        · rename_i v made hv
          obtain ⟨hmade, horderly⟩ := hlaw known s v made hknown hs hv
          have hcovers := covers_shows d (List.subset_cons_self v d.frames.held)
          have hused : Inspector.Grows d.Shows d.inspector { d.inspector with made } :=
            .of_handles_eq hc rfl hmade
          have hrow := (Inspector.listed_row { d.inspector with made } "result" v).grows
            hused.consistent
            (Inspector.fits_of_coherent hcovers horderly.coherent (.held List.mem_cons_self))
            (Inspector.free_of_orderly hcovers horderly)
          exact (hused.trans hrow).trans (grows_keep hrow.consistent _ _)

/-- Only the end of the session takes handles from what the known frames hold. -/
theorem grows_undergo (hc : d.inspector.handles.Consistent) {e : Happening C}
    (hlaw : d.Lawful e) (hdetach : e ≠ .event .detach) :
    Inspector.Grows d.Shows d.inspector (d.undergo e).inspector := by
  cases hinspects : e.inspects with
  | false =>
    rw [undergo_inspector hinspects]
    exact .refl hc
  | true =>
    cases e with
    | takeOver => contradiction
    | passTo => exact .of_handles_eq hc rfl (Nat.le_refl _)
    | event e =>
      cases e with
      | scopes frame =>
        show Inspector.Grows d.Shows d.inspector (d.scopes frame).2.inspector
        cases hknown : d.frames.get? frame with
        | none =>
          rw [scopes_of_unknown hknown]
          exact .refl hc
        | some known => exact (adds_scopes_of_orderly hc hknown hlaw).1
      | children p id filter start count =>
        refine Inspector.grows_children hc (covers_shows d fun v hv => ?_) hlaw id filter start count
        exact List.mem_append_left _ (List.mem_append_right _ hv)
      | evaluate frame expression => exact grows_evaluate hc hlaw
      | reclaim p =>
        refine ⟨(Handles.without_reclaim hc _).consistent, Nat.le_refl _, ?_⟩
        rintro r _ ⟨v, hv, rfl⟩ hget
        refine (Handles.get?_reclaim hc _ r).trans (Option.filter_eq_some_iff.mpr ⟨hget, ?_⟩)
        exact Value.contains_holding (List.mem_append_left _ (List.mem_append_right _ hv))
      | _ => contradiction

theorem exceptionOf?_undergo {g : List (Naming C)} (hframed : Framed d.coordinator d.frames g)
    (hfound : d.frames.get? frame = some known) {e : Happening C}
    (hreleases : e.releases known.thread = false) :
    (d.undergo e).exceptionOf? known.thread = d.exceptionOf? known.thread := by
  obtain ⟨s, hs, _⟩ := hframed.found frame known hfound
  have hturn := turn_undergo d e known.thread
  rw [hreleases] at hturn
  rw [exceptionOf?, exceptionOf?, hturn.stays hs, hs]

/-- Scopes stand until their thread is released. -/
theorem Stands.undergo (h : Stands d frame known rows values) {g : List (Naming C)}
    (hframed : Framed d.coordinator d.frames g) {e : Happening C} (hlaw : d.Lawful e)
    (hreleases : e.releases known.thread = false) :
    Stands (d.undergo e) frame known rows values := by
  have hdetach : e ≠ .event .detach := by
    rintro rfl
    contradiction
  have hgrows := grows_undergo h.consistent hlaw hdetach
  have hstop := exceptionOf?_undergo hframed h.found hreleases
  have hnoted : known.top = true → ∀ x, d.exceptionOf? known.thread = some x →
      (d.undergo e).frames.exceptions.get? known.thread =
        some (d.exceptionValue known.thread x).1 := by
    intro htop x hx
    obtain ⟨v, hv⟩ := h.noted htop x hx
    simp only [exceptionValue, hv]
    exact exceptions_undergo hreleases hv
  refine ⟨hgrows.consistent, hframed.get?_undergo h.found hreleases, ?_, ?_, ?_⟩
  · exact fun htop x hx => ⟨_, hnoted htop x (hstop ▸ hx)⟩
  · exact (shown_congr hstop hnoted).trans h.shows
  · exact h.lists.mono hgrows fun x hx => ⟨x.2, h.held x hx, rfl⟩

theorem Stands.through (h : Stands d frame known rows values) {g : List (Naming C)}
    (hframed : Framed d.coordinator d.frames g) {hs : List (Happening C)}
    (hlaw : LawfulAlong d hs) (hreleases : ∀ e ∈ hs, e.releases known.thread = false) :
    Stands (d.through hs) frame known rows values := by
  induction hs generalizing d g with
  | nil => exact h
  | cons e hs ih =>
    have hfirst := h.undergo hframed hlaw.1 (hreleases e List.mem_cons_self)
    exact ih hfirst (hframed.undergo e) hlaw.2 fun x hx => hreleases x (List.mem_cons_of_mem _ hx)

end

theorem LawfulAlong.append {d : Debugger C} {hs later : List (Happening C)}
    (h : LawfulAlong d (hs ++ later)) : LawfulAlong d hs ∧ LawfulAlong (d.through hs) later := by
  induction hs generalizing d with
  | nil => exact ⟨trivial, h⟩
  | cons e hs ih => exact ⟨⟨h.1, (ih h.2).1⟩, (ih h.2).2⟩

theorem consistent_undergo {d : Debugger C} (hc : d.inspector.handles.Consistent)
    {e : Happening C} (hlaw : d.Lawful e) : (d.undergo e).inspector.handles.Consistent := by
  by_cases hdetach : e = .event .detach
  · subst hdetach
    exact hc.clear
  · exact (grows_undergo hc hlaw hdetach).consistent

theorem consistent_through {d : Debugger C} (hc : d.inspector.handles.Consistent)
    {hs : List (Happening C)} (hlaw : LawfulAlong d hs) :
    (d.through hs).inspector.handles.Consistent := by
  induction hs generalizing d with
  | nil => exact hc
  | cons e hs ih => exact ih (consistent_undergo hc hlaw.1) hlaw.2

/-- Along every lawful history in which the scopes of a known frame are listed: until the thread is
released, listing them again gives the same rows, and each row leads to the value that it was listed
for, whatever else the client asks for and whatever the other threads do. -/
theorem scopes_last (o : Options) (before later : List (Happening C)) (frame : Int)
    (known : KnownFrame) (hlaw : LawfulAlong (new o) (before ++ .event (.scopes frame) :: later))
    (hknown : ((new o : Debugger C).through before).frames.get? frame = some known)
    (hlater : ∀ e ∈ later, e.releases known.thread = false) :
    let first := (new o : Debugger C).through before
    let d := (first.undergo (.event (.scopes frame))).through later
    (d.scopes frame).1 = (first.scopes frame).1 ∧
      ∀ p, Coherent (d.inspector.held (d.held p)) →
        List.Forall₂ (fun row x => row.name = x.1 ∧
          d.inspector.resolve? (d.held p) row.reference = some x.2)
          (first.scopes frame).1 (first.shown known) := by
  intro first d
  obtain ⟨hbefore, hscopes, hafter⟩ := hlaw.append
  have hc : first.inspector.handles.Consistent :=
    consistent_through Handles.consistent_new hbefore
  have hframed := (framed_through o before).undergo (.event (.scopes frame))
  have hstart := stands_scopes hc hknown hscopes
  have hend : Stands d frame known (first.scopes frame).1 (first.shown known) :=
    hstart.through hframed hafter hlater
  exact ⟨hend.scopes_eq, hend.resolves⟩

/-! A thread stops for an exception, and while the client looks at its scopes it evaluates two
expressions. There is room for one pin. -/

def localText : Value := .mk (.first 1 1) none (.text "now")

def localScope : Value := .mk (.first 1 0) none (.struct [("x", localText)])

/-- What shows the exception: the first values that the adapter makes. -/
def thrown : Value :=
  .mk (.first 0 2) none (.struct [("type", .mk (.first 0 0) none (.text "Error")),
    ("message", .mk (.first 0 1) none (.text "no"))])

/-- What the expression gives, at an offset. -/
def freshList (offset : Nat) : Value :=
  .mk (.first 0 offset) none (.array [.mk (.first 0 (offset + 1)) none (.text "now")])

def throwing : DescribedThread :=
  ⟨10, "ten", [⟨"f", "a", 3, [⟨"Local", localScope⟩]⟩],
    [⟨"list", none, .fresh (.mk (.first 1 2) none (.array [localText]))⟩]⟩

def beforeScopes : List (Happening DescribedThread) :=
  [.event (.attach ⟨some "s", [], false⟩), .event (.setExceptionBreakpoints ["uncaught"]),
    .event (.announce 10 ⟨"Error", "no", none, "", none⟩ false),
    .event (.report throwing (.line "a" 3)), .event (.stackTrace 10 0 none)]

def afterScopes : List (Happening DescribedThread) :=
  [.event (.evaluate (some 1) "list"), .event (.evaluate (some 1) "list"),
    .event (.children ⟨[], fun _ => [], [], []⟩ 2 .all none none),
    .event (.reclaim ⟨[], fun _ => [], [], []⟩)]

theorem scopes_last_evictedPins :
    let first := (new ⟨true, some "s", 1, none⟩ : Debugger DescribedThread).through beforeScopes
    let d := (first.undergo (.event (.scopes 1))).through afterScopes
    (d.scopes 1).1 = [⟨"Exception", 1⟩, ⟨"Local", 2⟩] ∧
      ∀ p, Coherent (d.inspector.held (d.held p)) →
        d.inspector.resolve? (d.held p) 2 = some localScope := by
  intro first d
  have hfirst : Orderly [localScope] 0 := by
    refine Value.orderly_of_listed [localScope, localText] ?_ (by decide) (by decide)
    simp [Value.within_cons_iff, Value.not_within_nil, localScope, localText, Value.parts,
      Value.shape, Shape.parts]
  have hlater : ∀ offset held, offset = 3 ∨ offset = 5 →
      held ⊆ [freshList offset, localScope, thrown] → Orderly held (offset + 2) := by
    intro offset held hoffset hsub
    have hall : ∀ v, Value.Within held v → v ∈ [freshList offset, localScope, thrown, localText] ++
        (freshList offset).parts ++ thrown.parts := by
      intro v hv
      have hv := hv.mono hsub
      simp [Value.within_cons_iff, Value.not_within_nil, localScope, localText, thrown, freshList,
        Value.parts, Value.shape, Shape.parts] at hv ⊢
      tauto
    rcases hoffset with rfl | rfl
    · exact Value.orderly_of_listed _ hall (by decide) (by decide)
    · exact Value.orderly_of_listed _ hall (by decide) (by decide)
  have hlaw : LawfulAlong (new ⟨true, some "s", 1, none⟩ : Debugger DescribedThread)
      (beforeScopes ++ .event (.scopes 1) :: afterScopes) := by
    refine ⟨trivial, trivial, trivial, trivial, trivial, hfirst, ?_, ?_, ?_, trivial, trivial⟩
    · intro known s v made hknown hs hv
      cases hknown
      cases hs
      cases hv
      exact ⟨by decide, hlater 3 [freshList 3, localScope, thrown] (Or.inl rfl) (by simp)⟩
    · intro known s v made hknown hs hv
      cases hknown
      cases hs
      cases hv
      exact ⟨by decide, hlater 5 [freshList 5, localScope, thrown] (Or.inr rfl) (by simp)⟩
    · exact hlater 5 [localScope, localScope, thrown, freshList 5] (Or.inr rfl) (by simp)
  obtain ⟨hrows, hresolves⟩ := scopes_last ⟨true, some "s", 1, none⟩ beforeScopes afterScopes 1
    ⟨10, 0, true, ⟨"f", "a", 3, [⟨"Local", localScope⟩]⟩⟩ hlaw rfl (by decide)
  refine ⟨hrows.trans rfl, fun p hp => ?_⟩
  cases hresolves p hp with
  | cons _ hrest =>
    cases hrest with
    | cons hlocal _ => exact hlocal.2

end Debugger

end DebugAdapter
