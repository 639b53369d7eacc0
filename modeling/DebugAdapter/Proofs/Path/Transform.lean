import DebugAdapter.Path.Transform
import DebugAdapter.Proofs.Path.Canonical

/-!
# Paths on both sides

A transform puts the rest of a path behind another leading part, and canonical forms see the seam:
a separator that ends the one and a separator that begins the other are one. `canonical_toClient_iff`
says which paths are found again on the way back. On the way there the spelling of a path does not
matter (`toDebuggee_congr`): transforms match the raw text, but as far as it is cut at all, it is cut
where its canonical form is.
-/

namespace DebugAdapter.Path

theorem rest?_eq_some_iff {fold : Folding} (hne : ∀ c, fold c ≠ []) {path start rest : String} :
    rest? fold path start = some rest ↔ ∃ leading, path.toList = leading ++ rest.toList ∧
      Leads fold false (canonicalFrom fold false start.toList) leading rest.toList := by
  rw [rest?, Option.map_eq_some_iff]
  simp only [restFrom?_eq_some_iff hne]
  constructor
  · rintro ⟨left, hleads, rfl⟩
    rwa [String.toList_ofList]
  · intro hleads
    exact ⟨rest.toList, hleads, String.ofList_toList⟩

section
variable {fold : Folding} (hfold : fold.Final)
include hfold

/-- A leading part ends in a separator exactly if what it names does. -/
theorem Leads.endsSeparated_eq {start leading rest : List Char}
    (h : Leads fold false (canonicalFrom fold false start) leading rest) :
    endsSeparated false leading = endsSeparated false start := by
  rw [← endsSeparated_canonicalFrom hfold, h.canonical_eq, endsSeparated_canonicalFrom hfold]

/-! ## There and back -/

/-- A canonical path is what stands behind the canonical form of any part that it begins with. -/
theorem rest?_canonical_append (start rest : String) :
    rest? fold (canonical fold (start ++ rest)) start =
      some (String.ofList (canonicalFrom fold (endsSeparated false start.toList) rest.toList)) := by
  rw [rest?_eq_some_iff hfold.ne_nil]
  refine ⟨canonicalFrom fold false start.toList, ?_, ?_, ?_⟩
  · rw [toList_canonical, String.toList_append, canonicalFrom_append, String.toList_ofList]
  · rw [canonicalFrom_canonicalFrom hfold]
    rfl
  · intro hends
    rw [endsSeparated_canonicalFrom hfold] at hends
    rw [String.toList_ofList, startsSeparated_canonicalFrom hfold, hends]
    rfl

theorem canonical_toClient (t : Transform) {path rest : String}
    (h : rest? fold path t.client = some rest) :
    canonical fold (Mapper.toClient ⟨[t], fold⟩ (Mapper.toDebuggee ⟨[t], fold⟩ path)) =
      String.ofList (canonicalFrom fold false t.client.toList ++
        canonicalFrom fold (endsSeparated false t.client.toList || endsSeparated false t.debuggee.toList)
          rest.toList) := by
  have hthere : Mapper.toDebuggee ⟨[t], fold⟩ path = canonical fold (t.debuggee ++ rest) := by
    simp [Mapper.toDebuggee, Transform.toDebuggee?, h]
  have hback : Mapper.toClient ⟨[t], fold⟩ (canonical fold (t.debuggee ++ rest)) = t.client ++
      String.ofList (canonicalFrom fold (endsSeparated false t.debuggee.toList) rest.toList) := by
    simp [Mapper.toClient, Transform.toClient?, rest?_canonical_append hfold]
  rw [hthere, hback, canonical, String.toList_append, canonicalFrom_append, String.toList_ofList,
    canonicalFrom_canonicalFrom hfold]

theorem canonical_of_rest? {path start rest : String} (h : rest? fold path start = some rest) :
    canonical fold path = String.ofList (canonicalFrom fold false start.toList ++
      canonicalFrom fold (endsSeparated false start.toList) rest.toList) := by
  obtain ⟨leading, hpath, hleads⟩ := (rest?_eq_some_iff hfold.ne_nil).mp h
  rw [canonical, hpath, canonicalFrom_append, hleads.canonical_eq, hleads.endsSeparated_eq hfold]

end

/-- A client's path that a transform applies to names, once it has been mapped there and back, the
same file, except where the debuggee's part ends in a separator and the client's does not: a
separator behind the client's part is lost then. -/
theorem canonical_toClient_iff (sensitive : Bool) (t : Transform) {path rest : String}
    (h : rest? (.ofCaseSensitive sensitive) path t.client = some rest) :
    let m : Mapper := ⟨[t], .ofCaseSensitive sensitive⟩
    canonical m.fold (m.toClient (m.toDebuggee path)) = canonical m.fold path ↔
      ¬(endsSeparated false t.debuggee.toList = true ∧ endsSeparated false t.client.toList = false ∧
        startsSeparated rest.toList = true) := by
  intro m
  have hfold := Folding.final_ofCaseSensitive sensitive
  rw [canonical_toClient hfold t h, canonical_of_rest? hfold h, String.ofList_inj,
    List.append_cancel_left_eq]
  cases hclient : endsSeparated false t.client.toList with
  | true => simp
  | false =>
    cases hdebuggee : endsSeparated false t.debuggee.toList with
    | false => simp
    | true =>
      rw [Bool.false_or, canonicalFrom_eq_iff]
      simp

/-- Separators and letter case differ in the two spellings of the client's part. -/
theorem canonical_toClient_iff_mixedSpelling :
    rest? (.ofCaseSensitive false) "c:/work//Lib/x.src" "C:\\Work\\" = some "Lib/x.src" ∧
      let m : Mapper := ⟨[⟨"C:\\Work\\", "/srv/app/"⟩], .ofCaseSensitive false⟩
      canonical m.fold (m.toClient (m.toDebuggee "c:/work//Lib/x.src")) =
        canonical m.fold "c:/work//Lib/x.src" := by
  have hrest : rest? (.ofCaseSensitive false) "c:/work//Lib/x.src" "C:\\Work\\" =
      some "Lib/x.src" := by decide
  exact ⟨hrest, (canonical_toClient_iff false ⟨"C:\\Work\\", "/srv/app/"⟩ hrest).mpr (by decide)⟩

/-- With a separator at the end of the debuggee's part alone, two names run together on the way
back. -/
theorem separator_lost :
    let m : Mapper := ⟨[⟨"/home", "/srv/"⟩], .ofCaseSensitive true⟩
    rest? m.fold "/home/a.src" "/home" = some "/a.src" ∧
      m.toDebuggee "/home/a.src" = "/srv/a.src" ∧ m.toClient "/srv/a.src" = "/homea.src" ∧
      canonical m.fold (m.toClient (m.toDebuggee "/home/a.src")) ≠
        canonical m.fold "/home/a.src" := by
  decide

/-! ## Spellings of one path -/

section
variable {fold : Folding} (hfold : fold.Final) {p q : String}
include hfold

theorem rest?_congr (hq : ∀ c ∈ q.toList, (fold c).length = 1)
    (hpq : canonical fold p = canonical fold q) {start rest : String}
    (h : rest? fold p start = some rest) :
    ∃ rest', rest? fold q start = some rest' ∧ ∀ before,
      canonicalFrom fold before rest.toList = canonicalFrom fold before rest'.toList := by
  obtain ⟨leading, hp, hleads⟩ := (rest?_eq_some_iff hfold.ne_nil).mp h
  rw [canonical_eq_iff, hp, canonicalFrom_append, hleads.canonical_eq,
    hleads.endsSeparated_eq hfold] at hpq
  obtain ⟨leading', left, hcut, hleads'⟩ := exists_leads hq hpq.symm
  rw [hcut, canonicalFrom_append, hleads'.canonical_eq, hleads'.endsSeparated_eq hfold,
    List.append_cancel_left_eq] at hpq
  refine ⟨String.ofList left, ?_, ?_⟩
  · rw [rest?_eq_some_iff hfold.ne_nil, String.toList_ofList]
    exact ⟨leading', hcut, hleads'⟩
  · have hends := hleads.endsSeparated_eq hfold
    have hends' := hleads'.endsSeparated_eq hfold
    rw [String.toList_ofList]
    exact canonicalFrom_congr hfold hpq (fun h => hleads.whole (hends.trans h))
      (fun h => hleads'.whole (hends'.trans h))

theorem map_toDebuggee?_congr (hp : ∀ c ∈ p.toList, (fold c).length = 1)
    (hq : ∀ c ∈ q.toList, (fold c).length = 1) (hpq : canonical fold p = canonical fold q)
    (t : Transform) : (t.toDebuggee? fold p).map (canonical fold) =
      (t.toDebuggee? fold q).map (canonical fold) := by
  rw [Transform.toDebuggee?, Transform.toDebuggee?]
  cases h : rest? fold p t.client with
  | some rest =>
    obtain ⟨rest', hrest', hsame⟩ := rest?_congr hfold hq hpq h
    simp only [hrest', Option.map_some, canonical_eq_iff, String.toList_append,
      canonicalFrom_append, hsame, Option.some.injEq]
  | none =>
    cases h' : rest? fold q t.client with
    | none => rfl
    | some rest' =>
      obtain ⟨rest, hrest, -⟩ := rest?_congr hfold hp hpq.symm h'
      rw [h] at hrest
      contradiction

omit hfold in
/-- It does not matter whether a path is made canonical before or after a transform is chosen. -/
theorem toDebuggee_eq (m : Mapper) (path : String) :
    m.toDebuggee path =
      (m.transforms.findSome? fun t => (t.toDebuggee? m.fold path).map (canonical m.fold)).getD
        (canonical m.fold path) := by
  rw [Mapper.toDebuggee, ← Option.getD_map (canonical m.fold), List.map_findSome?]
  rfl

theorem toDebuggee_congr (hp : ∀ c ∈ p.toList, (fold c).length = 1)
    (hq : ∀ c ∈ q.toList, (fold c).length = 1) (hpq : canonical fold p = canonical fold q)
    (transforms : List Transform) :
    Mapper.toDebuggee ⟨transforms, fold⟩ p = Mapper.toDebuggee ⟨transforms, fold⟩ q := by
  simp only [toDebuggee_eq, map_toDebuggee?_congr hfold hp hq hpq, hpq]

end

end DebugAdapter.Path
