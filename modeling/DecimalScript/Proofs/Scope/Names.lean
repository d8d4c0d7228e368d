import DecimalScript.Proofs.Scope.Kept

/-!
# The names of the current frame

Which names the current frame binds (`Scopes.boundNames`), and how binding adds to them. A frame can
bind a list of names if none of them is global, none is bound there and none stands in the list twice
(`Scopes.CanBind`). What an evaluation adds is told by `Scopes.Gains`, in which the values do not
occur, so that an assignment adds nothing (`Kept.gains`).
-/

namespace DecimalScript

theorem Entries.contains_eq_true_iff {α : Type} {entries : Entries α} {key : String} :
    entries.contains key = true ↔ key ∈ entries.keys := by
  rw [contains, Option.isSome_iff_ne_none, ne_eq, get?_eq_none_iff, Decidable.not_not]

/-- An assignment adds no name and takes none away. -/
theorem Frame.Kept.mem_keys_iff {f g : Frame} (h : f.Kept g) (name : String) :
    name ∈ g.bindings.keys ↔ name ∈ f.bindings.keys := by
  -- a key is a name whose lookup succeeds, and both directions are easier for names that are
  -- unbound
  rw [← Decidable.not_iff_not, ← Entries.get?_eq_none_iff, ← Entries.get?_eq_none_iff]
  refine ⟨fun hnone => ?_, h.unbound name⟩
  rw [Option.eq_none_iff_forall_ne_some]
  intro binding hbound
  obtain ⟨value, hvalue, -⟩ := h.bindings name binding hbound
  rw [hnone] at hvalue
  cases hvalue

namespace Scopes

/-- The names that the current frame binds. -/
def boundNames (scopes : Scopes) : List String :=
  ((scopes.frames[scopes.current]?).map (·.bindings.keys)).getD []

/-- The names can be bound in the current frame, one after another. -/
structure CanBind (scopes : Scopes) (names : List String) : Prop where
  nodup : names.Nodup
  notGlobal : ∀ name ∈ names, name ∉ scopes.globals.keys
  notBound : ∀ name ∈ names, name ∉ scopes.boundNames

/-- The same frame is current, and it binds the names that it did and these. -/
structure Gains (before after : Scopes) (names : List String) : Prop where
  globals : after.globals = before.globals
  current : after.current = before.current
  depth : after.depth = before.depth
  mem_boundNames_iff : ∀ name,
    name ∈ after.boundNames ↔ name ∈ before.boundNames ∨ name ∈ names

variable {s t u : Scopes} {name : String} {names more : List String}

theorem boundNames_of_frame {frame : Frame} (h : s.frames[s.current]? = some frame) :
    s.boundNames = frame.bindings.keys := by
  rw [boundNames, h, Option.map_some, Option.getD_some]

/-! ### What is gained -/

theorem Gains.refl (s : Scopes) : s.Gains s [] where
  globals := rfl
  current := rfl
  depth := rfl
  mem_boundNames_iff other := by simp

theorem Gains.trans (hst : s.Gains t names) (htu : t.Gains u more) : s.Gains u (names ++ more) where
  globals := htu.globals.trans hst.globals
  current := htu.current.trans hst.current
  depth := htu.depth.trans hst.depth
  mem_boundNames_iff other := by
    rw [htu.mem_boundNames_iff, hst.mem_boundNames_iff, List.mem_append, or_assoc]

/-- An evaluation that may give variables other values and no more adds no name. -/
theorem Kept.gains (h : s.Kept Frame.Kept t) (hcurrent : s.current < s.depth) : s.Gains t [] where
  globals := h.globals
  current := h.current
  depth := h.depth
  mem_boundNames_iff other := by
    -- the current frame is there, and the names are those that it binds
    have hf : s.frames[s.current]? = some s.frames[s.current] := Array.getElem?_eq_getElem hcurrent
    obtain ⟨g, hg, hkept⟩ := h.inner _ hf
    rw [← h.current] at hg
    rw [boundNames_of_frame hf, boundNames_of_frame hg, hkept.mem_keys_iff]
    simp

/-- What can be bound after a gain could be bound before it too, behind the names that came. -/
theorem Gains.canBind_iff (h : s.Gains t names) (hnames : s.CanBind names) :
    t.CanBind more ↔ s.CanBind (names ++ more) := by
  -- what stands after the first names may repeat none of them, and of both lists no name is bound
  -- or global
  constructor
  · intro hmore
    refine ⟨List.nodup_append.2 ⟨hnames.nodup, hmore.nodup, ?_⟩, ?_, ?_⟩
    · rintro other hother _ hmem rfl
      exact hmore.notBound other hmem ((h.mem_boundNames_iff other).2 (.inr hother))
    · rw [List.forall_mem_append]
      exact ⟨hnames.notGlobal, fun other hother => h.globals ▸ hmore.notGlobal other hother⟩
    · rw [List.forall_mem_append]
      exact ⟨hnames.notBound, fun other hother hbound =>
        hmore.notBound other hother ((h.mem_boundNames_iff other).2 (.inl hbound))⟩
  · intro hall
    obtain ⟨-, hmore, hdisjoint⟩ := List.nodup_append.1 hall.nodup
    refine ⟨hmore, fun other hother => ?_, fun other hother hbound => ?_⟩
    · rw [h.globals]
      exact hall.notGlobal other (List.mem_append_right names hother)
    · obtain hbefore | hname := (h.mem_boundNames_iff other).1 hbound
      · exact hall.notBound other (List.mem_append_right names hother) hbefore
      · exact hdisjoint other hname other hother rfl

theorem canBind_nil (s : Scopes) : s.CanBind [] :=
  ⟨List.nodup_nil, List.forall_mem_nil _, List.forall_mem_nil _⟩

theorem CanBind.of_append (h : s.CanBind (names ++ more)) : s.CanBind names where
  nodup := (List.nodup_append.1 h.nodup).1
  notGlobal other hother := h.notGlobal other (List.mem_append_left more hother)
  notBound other hother := h.notBound other (List.mem_append_left more hother)

theorem canBind_singleton_iff :
    s.CanBind [name] ↔ name ∉ s.globals.keys ∧ name ∉ s.boundNames := by
  constructor
  · exact fun h => ⟨h.notGlobal name List.mem_cons_self, h.notBound name List.mem_cons_self⟩
  · exact fun h => ⟨by simp, List.forall_mem_singleton.2 h.1,
      List.forall_mem_singleton.2 h.2⟩

/-! ### Binding -/

theorem bind_of_canBind (hcurrent : s.current < s.depth) (h : s.CanBind [name]) (value : Value)
    (constant : Bool) : ∃ t, s.bind name value constant = .ok t ∧ s.Gains t [name] := by
  -- both checks are passed, since the name is neither global nor bound here
  obtain ⟨hglobal, hbound⟩ := canBind_singleton_iff.1 h
  have hf : s.frames[s.current]? = some s.frames[s.current] := Array.getElem?_eq_getElem hcurrent
  rw [boundNames_of_frame hf] at hbound
  rw [bind, if_neg (mt Entries.contains_eq_true_iff.1 hglobal), hf, Option.any_some,
    if_neg (mt Entries.contains_eq_true_iff.1 hbound)]
  refine ⟨_, rfl, rfl, rfl, depth_modifyCurrent _ _, fun other => ?_⟩
  have hg : (s.modifyCurrent fun frame =>
      { frame with bindings := frame.bindings.insert name { value, constant } }).frames[s.current]? =
        some { s.frames[s.current] with
          bindings := s.frames[s.current].bindings.insert name { value, constant } } := by
    rw [getElem?_modifyCurrent, if_pos rfl, hf, Option.map_some]
  rw [boundNames_of_frame hf, boundNames_of_frame hg, Entries.keys_insert, if_neg hbound,
    List.mem_append]

theorem bind_of_not_canBind (h : ¬s.CanBind [name]) (value : Value) (constant : Bool) :
    s.bind name value constant = .error (.redeclaredName name) := by
  rw [canBind_singleton_iff, Decidable.not_and_iff_not_or_not, Decidable.not_not,
    Decidable.not_not] at h
  rw [bind]
  split
  · rfl
  · next hglobal =>
    rw [Entries.contains_eq_true_iff] at hglobal
    rw [if_pos]
    -- the name is not global, so the current frame binds it
    have hbound := h.resolve_left hglobal
    cases hf : s.frames[s.current]? with
    | none => simp [boundNames, hf] at hbound
    | some frame =>
      rw [boundNames_of_frame hf] at hbound
      exact Entries.contains_eq_true_iff.2 hbound

end Scopes

end DecimalScript
