import AutomatonLab.Proofs.WellFormed
import AutomatonLab.Window.Diagram
import Mathlib.Data.List.Forall2
import Mathlib.Data.List.Induction

/-!
# What a diagram shows

The transitions of an automaton are grouped by their ends, one edge for every pair of states that is
joined (`Diagram.exists_edges_eq`). So a diagram has one line and one text for every pair, and its
text has the labels of exactly the transitions between the two states; a state has its circles, its
name and its arrow once, and the state in which the engine stands is the only active one
(`Diagram.Scene.Shows`). A diagram is drawn to its end exactly if every state has its place
(`Diagram.exists_shows_of_located`, `Diagram.exists_missing_of_not_located`).
-/

namespace AutomatonLab

/-! ## The middle of a canvas -/

namespace Binary64

/-- The exponent of a quotient grows with the size of the numbers only. -/
theorem exponentFor_le (num den : Nat) :
    exponentFor num den ≤ max minExponent ((num.log2 : Int) - den.log2 - 52) := by
  simp only [exponentFor]
  split <;> omega

/-- A quotient below the greatest exponent is a finite number. -/
theorem ofQuotient_ne_infinite {num den : Nat} (h : exponentFor num den < maxExponent)
    (negative sign : Bool) : ofQuotient negative num den ≠ .infinite sign := by
  have hplain : ¬maxExponent < exponentFor num den := by omega
  have hnext : ¬maxExponent < exponentFor num den + 1 := by omega
  simp only [ofQuotient]
  split <;> exact nofun

/-- The half of an integer is a native number if the integer is below `2 ^ 1024`. -/
theorem isSome_half? {n : Int} (hn : n.natAbs.log2 < 1024) : (half? n).isSome = true := by
  have hexponent : exponentFor n.natAbs 2 < maxExponent := by
    have hle := exponentFor_le n.natAbs 2
    have htwo : Nat.log2 2 = 1 := by decide
    rw [htwo] at hle
    simp only [minExponent, maxExponent] at hle ⊢
    omega
  unfold half?
  split
  case h_1 hinfinite => exact absurd hinfinite (ofQuotient_ne_infinite hexponent _ _)
  case h_2 => rfl

end Binary64

/-- The names of the states that a transition joins. -/
def Transition.ends (t : Transition) : Text × Text := (t.source, t.target)

namespace Diagram

/-! ## The edges -/

/-- The labels of the transitions from one state to another, in the order of the transitions. -/
def labelsOf (ts : List Transition) (p : Text × Text) : List Text :=
  (ts.filter fun t => t.ends == p).map fun t => t.label.text

/-- The edge for all transitions from one state to another. -/
def edgeOf (ts : List Transition) (p : Text × Text) : Edge := ⟨p.1, p.2, labelsOf ts p⟩

/-- One more transition adds its label to those of its own pair. -/
theorem labelsOf_append_singleton (ts : List Transition) (t : Transition) (p : Text × Text) :
    labelsOf (ts ++ [t]) p = labelsOf ts p ++ if t.ends = p then [t.label.text] else [] := by
  rw [labelsOf, List.filter_append, List.map_append]
  by_cases hp : t.ends = p <;> simp [labelsOf, hp]

/-- The edges of other pairs stay as they are. -/
theorem edgeOf_append_of_ne {ts : List Transition} {t : Transition} {p : Text × Text}
    (hp : t.ends ≠ p) : edgeOf (ts ++ [t]) p = edgeOf ts p := by
  rw [edgeOf, labelsOf_append_singleton, if_neg hp, List.append_nil, edgeOf]

theorem map_edgeOf_append_of_notMem {ts : List Transition} {t : Transition}
    {ps : List (Text × Text)} (hnew : t.ends ∉ ps) :
    ps.map (edgeOf (ts ++ [t])) = ps.map (edgeOf ts) :=
  List.map_congr_left fun _ hp => edgeOf_append_of_ne fun hends => hnew (hends ▸ hp)

/-- A transition joins the edge with its ends. -/
theorem insert_of_mem {ts : List Transition} {t : Transition} {ps : List (Text × Text)}
    (hps : ps.Nodup) (hmem : t.ends ∈ ps) :
    insert t (ps.map (edgeOf ts)) = ps.map (edgeOf (ts ++ [t])) := by
  induction ps with
  | nil => cases hmem
  | cons p ps ih =>
    obtain ⟨hp, hps⟩ := List.nodup_cons.1 hps
    rw [List.map_cons, List.map_cons, insert]
    by_cases hends : t.ends = p
    · subst hends
      have hedge : edgeOf (ts ++ [t]) t.ends =
          { edgeOf ts t.ends with labels := (edgeOf ts t.ends).labels ++ [t.label.text] } := by
        rw [edgeOf, labelsOf_append_singleton, if_pos rfl]
        rfl
      rw [if_pos ⟨rfl, rfl⟩, hedge, map_edgeOf_append_of_notMem hp]
    · have hother : ¬((edgeOf ts p).source = t.source ∧ (edgeOf ts p).target = t.target) :=
        fun h => hends (Prod.ext h.1.symm h.2.symm)
      rw [if_neg hother, edgeOf_append_of_ne hends,
        ih hps ((List.mem_cons.1 hmem).resolve_left hends)]

/-- A transition whose ends are new is an edge of its own. -/
theorem insert_of_notMem {ts : List Transition} {t : Transition} {ps : List (Text × Text)}
    (hnew : t.ends ∉ ps) :
    insert t (ps.map (edgeOf ts)) =
      ps.map (edgeOf ts) ++ [⟨t.source, t.target, [t.label.text]⟩] := by
  induction ps with
  | nil => rfl
  | cons p ps ih =>
    obtain ⟨hp, hps⟩ := List.ne_and_not_mem_of_not_mem_cons hnew
    have hother : ¬((edgeOf ts p).source = t.source ∧ (edgeOf ts p).target = t.target) :=
      fun h => hp (Prod.ext h.1.symm h.2.symm)
    rw [List.map_cons, insert, if_neg hother, ih hps, List.cons_append]

/-- There is one edge for every pair of states that is joined, with all labels between them. -/
theorem exists_edges_eq (ts : List Transition) :
    ∃ ps : List (Text × Text), ps.Nodup ∧ (∀ p, p ∈ ps ↔ ∃ t ∈ ts, t.ends = p) ∧
      edges ts = ps.map (edgeOf ts) := by
  -- from the end, since every edge found so far gets the label of the last transition or not
  induction ts using List.reverseRec with
  | nil => exact ⟨[], List.nodup_nil, by simp, rfl⟩
  | append_singleton ts t ih =>
    obtain ⟨ps, hps, hmem, hedges⟩ := ih
    have hinsert : edges (ts ++ [t]) = insert t (ps.map (edgeOf ts)) := by
      rw [edges, List.foldl_append, ← hedges]
      rfl
    have hjoined (p : Text × Text) :
        (∃ u ∈ ts ++ [t], u.ends = p) ↔ p ∈ ps ∨ t.ends = p := by
      rw [hmem]
      simp [or_and_right, exists_or]
    by_cases ht : t.ends ∈ ps
    · refine ⟨ps, hps, fun p => ?_, hinsert.trans (insert_of_mem hps ht)⟩
      rw [hjoined]
      exact ⟨Or.inl, fun h => h.elim id fun hends => hends ▸ ht⟩
    · refine ⟨ps ++ [t.ends], List.nodup_append.2 ⟨hps, List.nodup_singleton _, ?_⟩,
        fun p => ?_, ?_⟩
      · intro p hp q hq hpq
        rw [List.mem_singleton.1 hq] at hpq
        exact ht (hpq ▸ hp)
      · rw [hjoined, List.mem_append, List.mem_singleton, eq_comm (a := p)]
      · have hlabels : labelsOf ts t.ends = [] := by
          have hnone : ∀ u ∈ ts, u.ends ≠ t.ends := fun u hu hends => ht ((hmem _).2 ⟨u, hu, hends⟩)
          simpa [labelsOf, List.filter_eq_nil_iff] using hnone
        rw [hinsert, insert_of_notMem ht, List.map_append, map_edgeOf_append_of_notMem ht,
          List.map_singleton, edgeOf, labelsOf_append_singleton, hlabels, if_pos rfl]
        rfl

/-! ## What is drawn -/

/-- The name of a state in the middle of its circle. -/
def nameItem (name : Text) (x y : Float) : Item Float where
  kind := .text
  coords := [x, y]
  style := { text := some (.str name), font := some (Font.plain "Helvetica" 13) }

/-- The circle of a state is marked. -/
def isActive (items : List (Item Float)) : Bool :=
  items.any fun i => i.kind == .oval && i.style.fill == some "#e0f2fe"

namespace Scene

variable (s : Scene)

/-- The automaton is well-formed, and the canvas has a middle. -/
structure Framed : Prop where
  wellFormed : s.automaton.WellFormed
  width : s.size.1.natAbs.log2 < 1024
  height : s.size.2.natAbs.log2 < 1024

/-- Every state has its place. -/
def Located : Prop := ∀ q ∈ s.automaton.states, (s.places.lookup q.name).isSome = true

/-- A line and a text with all labels between two states. Both are marked if the edge is. -/
structure EdgePicture (p : Text × Text) (items : List (Item Float)) : Prop where
  exists_items : ∃ line label, items = [line, label] ∧ line.kind = .line ∧
    line.style = edgeStyle (s.highlight == some p) ∧ label.kind = .text ∧
    label.style.text = some (.str (Text.join "\n" (labelsOf s.automaton.transitions p))) ∧
    label.style.fill = line.style.fill
  of_eq : p.1 = p.2 → ∃ x y, s.place p.1 = .ok (x, y) ∧
    items = loop (s.highlight == some p) (labelsOf s.automaton.transitions p) x y
  /-- The line is bent if there is an edge in the other direction. -/
  of_ne : p.1 ≠ p.2 → ∃ x1 y1 x2 y2 bent, s.place p.1 = .ok (x1, y1) ∧
    s.place p.2 = .ok (x2, y2) ∧
    (bent = true ↔ ∃ t ∈ s.automaton.transitions, t.ends = (p.2, p.1)) ∧
    items = arc (s.highlight == some p) bent (labelsOf s.automaton.transitions p) x1 y1 x2 y2

/-- One circle or two, the name, and an arrow if the state is initial. -/
structure StatePicture (q : State) (items : List (Item Float)) : Prop where
  ovals : (items.filter fun i => i.kind == .oval).length = if q.final then 2 else 1
  name : ∃ x y, s.place q.name = .ok (x, y) ∧
    (items.filter fun i => i.kind == .text) = [nameItem q.name x y]
  arrow : ((items.filter fun i => i.kind == .line).map fun i => i.style.arrow) =
    if q.initial then [true] else []
  active : isActive items = (s.current == some q.name)

/-- The items are the pictures of the edges, one for every pair of states that is joined, and then
those of the states. -/
structure Shows (pairs : List (Text × Text)) (edgePictures statePictures : List (List (Item Float)))
    (items : List (Item Float)) : Prop where
  items_eq : items = edgePictures.flatten ++ statePictures.flatten
  nodup : pairs.Nodup
  mem_iff : ∀ p, p ∈ pairs ↔ ∃ t ∈ s.automaton.transitions, t.ends = p
  edges : List.Forall₂ s.EdgePicture pairs edgePictures
  states : List.Forall₂ s.StatePicture s.automaton.states statePictures
  /-- Only the current state is active. -/
  active : ∀ q ∈ s.automaton.states, s.current = some q.name →
    ∃ picture, statePictures.filter isActive = [picture] ∧ s.StatePicture q picture

end Scene

/-! ## The parts of a drawing -/

section Parts

variable {α κ : Type} {f : α → Except Fault (List (Item κ))} {xs : List α}

/-- Parts that can all be drawn are drawn one after the other. -/
theorem exists_parts {R : α → List (Item κ) → Prop}
    (h : ∀ x ∈ xs, ∃ items, f x = .ok items ∧ R x items) :
    ∃ parts : List (List (Item κ)), xs.map f = parts.map .ok ∧ List.Forall₂ R xs parts := by
  induction xs with
  | nil => exact ⟨[], rfl, .nil⟩
  | cons x xs ih =>
    obtain ⟨⟨items, hitems, hR⟩, hrest⟩ := List.forall_mem_cons.1 h
    obtain ⟨parts, hparts, hall⟩ := ih hrest
    exact ⟨items :: parts, by rw [List.map_cons, hitems, hparts, List.map_cons], .cons hR hall⟩

/-- Without a fault, all parts are drawn. -/
theorem collect_map_ok (parts : List (List (Item κ))) :
    collect (parts.map .ok) = (parts.flatten, none) := by
  induction parts with
  | nil => rfl
  | cons items parts ih =>
    rw [List.map_cons, collect, ih]
    rfl

/-- If nothing is missing, each part could be drawn. -/
theorem ok_of_collect {parts : List (Except Fault (List (Item κ)))}
    (h : (collect parts).2 = none) : ∀ part ∈ parts, ∃ items, part = .ok items := by
  induction parts with
  | nil => exact nofun
  | cons part parts ih =>
    cases part with
    | error fault => cases h
    | ok items => exact List.forall_mem_cons.2 ⟨⟨items, rfl⟩, ih h⟩

/-- What is missing is missing because of one of the parts. -/
theorem mem_of_collect {parts : List (Except Fault (List (Item κ)))} {fault : Fault}
    (h : (collect parts).2 = some fault) : .error fault ∈ parts := by
  induction parts with
  | nil => cases h
  | cons part parts ih =>
    cases part with
    | error other =>
      obtain rfl := Option.some.inj h
      exact List.mem_cons_self
    | ok items => exact List.mem_cons_of_mem _ (ih h)

end Parts

/-- One state has the name of a state. -/
theorem filter_name_eq {a : Automaton} (h : a.WellFormed) {q : State} (hq : q ∈ a.states) :
    (a.states.filter fun q' => q'.name == q.name) = [q] := by
  obtain ⟨before, after, hstates⟩ := List.append_of_mem hq
  have hnames := h.names
  rw [hstates, List.map_append, List.map_cons, List.nodup_middle, ← List.map_append,
    List.nodup_cons] at hnames
  have hother : ∀ q' ∈ before ++ after, ¬(q'.name == q.name) = true := fun q' hq' hname =>
    hnames.1 (beq_iff_eq.1 hname ▸ List.mem_map_of_mem hq')
  rw [hstates, List.filter_append, List.filter_cons, if_pos (beq_self_eq_true _),
    List.filter_eq_nil_iff.2 fun q' hq' => hother q' (List.mem_append_left _ hq'),
    List.filter_eq_nil_iff.2 fun q' hq' => hother q' (List.mem_append_right _ hq'),
    List.nil_append]

/-! ## Drawing a scene -/

section Draw

variable {s : Scene}

/-- A state with a place is drawn somewhere. -/
theorem exists_place (h : s.Framed) {name : Text}
    (hname : (s.places.lookup name).isSome = true) : ∃ x y, s.place name = .ok (x, y) := by
  obtain ⟨⟨x, y⟩, hxy⟩ := Option.isSome_iff_exists.1 hname
  obtain ⟨right, hright⟩ := Option.isSome_iff_exists.1 (Binary64.isSome_half? h.width)
  obtain ⟨down, hdown⟩ := Option.isSome_iff_exists.1 (Binary64.isSome_half? h.height)
  exact ⟨x + right, y + down, by simp only [Scene.place, hxy, hright, hdown]⟩

/-- A state is missing only if it has no place. -/
theorem missing_of_place (h : s.Framed) {name : Text} {fault : Fault}
    (hplace : s.place name = .error fault) :
    s.places.lookup name = none ∧ fault = .missingKey name := by
  cases hname : s.places.lookup name with
  | none =>
    rw [Scene.place, hname] at hplace
    exact ⟨rfl, (Except.error.inj hplace).symm⟩
  | some p =>
    obtain ⟨x, y, hxy⟩ := exists_place h (Option.isSome_of_eq_some hname)
    cases hxy.symm.trans hplace

theorem lookup_of_located (hlocated : s.Located) {name : Text}
    (hname : name ∈ s.automaton.states.map State.name) :
    (s.places.lookup name).isSome = true := by
  obtain ⟨q, hq, rfl⟩ := List.mem_map.1 hname
  exact hlocated q hq

/-- Two states are joined exactly if a transition has them as its ends. -/
theorem joins_iff {source target : Text} :
    s.joins source target = true ↔
      ∃ t ∈ s.automaton.transitions, t.ends = (source, target) := by
  simp [Scene.joins, Transition.ends]

/-- An edge between states with their places is drawn as it should be. -/
theorem exists_edgePicture (h : s.Framed) (hlocated : s.Located) {p : Text × Text}
    (hp : ∃ t ∈ s.automaton.transitions, t.ends = p) :
    ∃ items, s.edgeItems (edgeOf s.automaton.transitions p) = .ok items ∧
      s.EdgePicture p items := by
  obtain ⟨t, ht, rfl⟩ := hp
  obtain ⟨hfrom, hto⟩ := h.wellFormed.endpoints t ht
  obtain ⟨x1, y1, hsource⟩ := exists_place h (lookup_of_located hlocated hfrom)
  obtain ⟨x2, y2, htarget⟩ := exists_place h (lookup_of_located hlocated hto)
  have hfirst : s.place (edgeOf s.automaton.transitions t.ends).source = .ok (x1, y1) := hsource
  have hlast : s.place (edgeOf s.automaton.transitions t.ends).target = .ok (x2, y2) := htarget
  rw [Scene.edgeItems, hfirst, hlast]
  simp only [bind, Except.bind]
  split
  case isTrue hloop =>
    exact ⟨_, rfl, ⟨_, _, rfl, rfl, rfl, rfl, rfl, rfl⟩, fun _ => ⟨x1, y1, hsource, rfl⟩,
      fun hne => absurd hloop hne⟩
  case isFalse hends =>
    exact ⟨_, rfl, ⟨_, _, rfl, rfl, rfl, rfl, rfl, rfl⟩, fun heq => absurd heq hends,
      fun _ => ⟨x1, y1, x2, y2, _, hsource, htarget, joins_iff, rfl⟩⟩

/-- A state with its place is drawn as it should be. -/
theorem exists_statePicture (h : s.Framed) (hlocated : s.Located) {q : State}
    (hq : q ∈ s.automaton.states) :
    ∃ items, s.stateItems q = .ok items ∧ s.StatePicture q items := by
  obtain ⟨x, y, hplace⟩ := exists_place h (hlocated q hq)
  refine ⟨_, by simp only [Scene.stateItems, hplace, bind, Except.bind]; rfl, ?_⟩
  obtain ⟨name, initial, final⟩ := q
  refine ⟨?_, ⟨x, y, hplace, ?_⟩, ?_, ?_⟩
  · cases initial <;> cases final <;> rfl
  · cases initial <;> cases final <;> rfl
  · cases initial <;> cases final <;> rfl
  · generalize (s.current == some name) = active
    cases active <;> cases initial <;> cases final <;> rfl

/-- Where every state has its place, the diagram is drawn to its end. -/
theorem exists_shows_of_located (h : s.Framed) (hlocated : s.Located) :
    (draw s).2 = none ∧ ∃ pairs edgePictures statePictures,
      s.Shows pairs edgePictures statePictures (draw s).1 := by
  obtain ⟨pairs, hnodup, hmem, hedges⟩ := exists_edges_eq s.automaton.transitions
  obtain ⟨edgePictures, hedgeParts, hedgePictures⟩ := exists_parts
    (f := fun p => s.edgeItems (edgeOf s.automaton.transitions p)) (R := s.EdgePicture)
    fun p hp => exists_edgePicture h hlocated ((hmem p).1 hp)
  obtain ⟨statePictures, hstateParts, hstatePictures⟩ := exists_parts
    (f := s.stateItems) (R := s.StatePicture)
    fun q hq => exists_statePicture h hlocated hq
  have hdraw : draw s = (edgePictures.flatten ++ statePictures.flatten, none) := by
    have hparts : (edges s.automaton.transitions).map s.edgeItems = edgePictures.map .ok := by
      rw [hedges, List.map_map, ← hedgeParts]
      rfl
    rw [draw, hparts, hstateParts, ← List.map_append, collect_map_ok, List.flatten_append]
  rw [hdraw]
  refine ⟨rfl, pairs, edgePictures, statePictures, rfl, hnodup, hmem, hedgePictures,
    hstatePictures, fun q hq hcurrent => ?_⟩
  -- the pictures that are active belong to the states with the name of `q`
  have hmarks : ∀ ⦃q' items⦄, s.StatePicture q' items →
      ((q'.name == q.name) = true ↔ isActive items = true) := fun q' items hitems => by
    rw [hitems.active, hcurrent, BEq.comm]
    rfl
  have hactive := List.rel_filter hmarks hstatePictures
  rw [filter_name_eq h.wellFormed hq] at hactive
  obtain ⟨picture, rest, hpicture, hrest, heq⟩ := List.forall₂_cons_left_iff.1 hactive
  obtain rfl := List.forall₂_nil_left_iff.1 hrest
  exact ⟨picture, heq, hpicture⟩

/-- An edge is not drawn because one of its ends has no place. -/
theorem place_of_edgeItems {e : Edge} {fault : Fault} (h : s.edgeItems e = .error fault) :
    s.place e.source = .error fault ∨ s.place e.target = .error fault := by
  rcases bind_eq_error_iff.1 h with hsource | ⟨⟨x1, y1⟩, -, h⟩
  · exact .inl hsource
  · rcases bind_eq_error_iff.1 h with htarget | ⟨⟨x2, y2⟩, -, h⟩
    · exact .inr htarget
    · simp only at h
      split at h <;> cases h

/-- A state that cannot be drawn has no place. -/
theorem place_of_stateItems {q : State} {fault : Fault} (h : s.stateItems q = .error fault) :
    s.place q.name = .error fault := by
  rcases bind_eq_error_iff.1 h with hplace | ⟨p, -, h⟩
  · exact hplace
  · cases h

/-- Otherwise the drawing breaks off at a state without a place. -/
theorem exists_missing_of_not_located (h : s.Framed) (hlost : ¬s.Located) :
    ∃ name ∈ s.automaton.states.map State.name, s.places.lookup name = none ∧
      (draw s).2 = some (.missingKey name) := by
  obtain ⟨q, hq, hnone⟩ : ∃ q ∈ s.automaton.states, s.places.lookup q.name = none := by
    simpa only [Scene.Located, not_forall, exists_prop, Option.not_isSome_iff_eq_none] using hlost
  cases hdraw : (draw s).2 with
  | none =>
    obtain ⟨items, hitems⟩ := ok_of_collect hdraw (s.stateItems q)
      (List.mem_append_right _ (List.mem_map_of_mem hq))
    obtain ⟨p, hp, -⟩ := bind_eq_ok_iff.1 hitems
    rw [Scene.place, hnone] at hp
    cases hp
  | some fault =>
    obtain ⟨name, hname, hplace⟩ : ∃ name ∈ s.automaton.states.map State.name,
        s.place name = .error fault := by
      rcases List.mem_append.1 (mem_of_collect hdraw) with hedge | hstate
      · obtain ⟨e, he, hitems⟩ := List.mem_map.1 hedge
        obtain ⟨pairs, -, hmem, hedges⟩ := exists_edges_eq s.automaton.transitions
        obtain ⟨p, hp, rfl⟩ := List.mem_map.1 (hedges ▸ he)
        obtain ⟨t, ht, rfl⟩ := (hmem p).1 hp
        obtain ⟨hfrom, hto⟩ := h.wellFormed.endpoints t ht
        rcases place_of_edgeItems hitems with hplace | hplace
        · exact ⟨t.source, hfrom, hplace⟩
        · exact ⟨t.target, hto, hplace⟩
      · obtain ⟨q', hq', hitems⟩ := List.mem_map.1 hstate
        exact ⟨q'.name, List.mem_map_of_mem hq', place_of_stateItems hitems⟩
    obtain ⟨hlookup, rfl⟩ := missing_of_place h hplace
    exact ⟨name, hname, hlookup, rfl⟩

end Draw

end Diagram

end AutomatonLab
