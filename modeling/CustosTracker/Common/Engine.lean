import Mathlib

set_option relaxedAutoImplicit false
set_option autoImplicit false

/-!
# The inference engine

`core/src/infer/ort_engine.cpp`: a loaded graph with static shapes, whose inputs are given by name.
A call reaches the graph exactly when the given tensors are a rearrangement of its inputs, and then
their order does not matter: the graph gets them in its own.

## Main definitions

* `Ctrk.TensorDesc`, `Ctrk.TensorView`, `Ctrk.Session` — descriptions, tensors, the loaded graph.
* `Ctrk.OrtEngine`, `Ctrk.OrtEngine.make`, `Ctrk.OrtEngine.run`.

## Main results

* `Ctrk.bindInputs_eq_error_iff` — a call fails on the first input, in graph order, that is not
  given or has another shape.
* `Ctrk.OrtEngine.binds_iff` — a call reaches the graph exactly on a rearrangement of its inputs.
* `Ctrk.OrtEngine.engine_by_name` — the engine that a load returns.

## Implementation notes

A tensor view carries the values behind its pointer.  The graph itself is a function of the values
of its inputs; like `Ort::Session::Run`, it may throw instead of answering (a graph whose inputs are
not of type `float` does).
-/

namespace Ctrk

variable {R : Type}

/-- Name and shape of a tensor of the graph. -/
structure TensorDesc where
  name : String
  shape : List ℤ
  deriving DecidableEq

/-- `elements`: the number of values. -/
def TensorDesc.elements (d : TensorDesc) : ℤ := d.shape.foldl (· * ·) 1

/-- A tensor: name, shape and the values behind its pointer. -/
structure TensorView (R : Type) where
  name : String
  shape : List ℤ
  data : List R

/-- A loaded graph: its inputs and outputs, and the shapes and values of the outputs, or the text of
an exception, as a function of the values of the inputs. -/
structure Session (R : Type) where
  inputs : List TensorDesc
  outputs : List TensorDesc
  run : List (List R) → Except String (List (List ℤ × List R))

/-- `describe`: only static shapes are accepted. -/
def describe (d : TensorDesc) : Except String TensorDesc :=
  if d.shape.any (· < 0) then
    .error ("dynamic shape on tensor '" ++ d.name ++
      "' — ctrk requires static graphs (re-export)")
  else .ok d

/-- The tensor given for a name: the last one of it. -/
def matchInput (inputs : List (TensorView R)) (name : String) : Option (TensorView R) :=
  inputs.foldl (fun found v => if v.name = name then some v else found) none

/-- The values of the inputs, in graph order. -/
def bindInputs (inputs : List (TensorView R)) : List TensorDesc → Except String (List (List R))
  | [] => .ok []
  | desc :: descs =>
    match matchInput inputs desc.name with
    | none => .error ("missing input tensor: " ++ desc.name)
    | some v =>
      if v.shape ≠ desc.shape then .error ("shape mismatch for input: " ++ desc.name)
      else (bindInputs inputs descs).map (v.data.take desc.elements.toNat :: ·)

/-- The engine's members. -/
structure OrtEngine (R : Type) where
  session : Session R
  inputDescs : List TensorDesc
  outputDescs : List TensorDesc

namespace OrtEngine

/-- The outputs of a graph, under its names. -/
def named (descs : List TensorDesc) (outs : List (List ℤ × List R)) : List (TensorView R) :=
  List.zipWith (fun d out => ⟨d.name, out.1, out.2⟩) descs outs

/-- `run`: bind the tensors to the inputs of the graph by name, and name its outputs. -/
def run (e : OrtEngine R) (inputs : List (TensorView R)) : Except String (List (TensorView R)) :=
  if inputs.length ≠ e.inputDescs.length then
    .error ("engine expects " ++ toString e.inputDescs.length ++ " inputs, got " ++
      toString inputs.length)
  else (bindInputs inputs e.inputDescs).bind fun values =>
    (e.session.run values).map (named e.outputDescs)

/-- The zero tensors of the warm-up. -/
def zeros [Zero R] (e : OrtEngine R) : List (TensorView R) :=
  e.inputDescs.map fun d => ⟨d.name, d.shape, List.replicate d.elements.toNat 0⟩

/-- The warm-up inference of a loaded engine, when it is asked for. -/
def warm [Zero R] (e : OrtEngine R) (warmup : Bool) : Except String (OrtEngine R) :=
  if warmup then (e.run e.zeros).map fun _ => e else .ok e

/-- The constructor: describe the graph, and warm up. -/
def make [Zero R] (s : Session R) (warmup : Bool) : Except String (OrtEngine R) := do
  let inputDescs ← s.inputs.mapM describe
  let outputDescs ← s.outputs.mapM describe
  warm ⟨s, inputDescs, outputDescs⟩ warmup

end OrtEngine

/-! ## Binding -/

/-- The tensor given for an input of the graph. -/
def Binds (inputs : List (TensorView R)) (d : TensorDesc) : Prop :=
  ∃ v, matchInput inputs d.name = some v ∧ v.shape = d.shape

theorem matchInput_concat (inputs : List (TensorView R)) (v : TensorView R) (name : String) :
    matchInput (inputs ++ [v]) name = if v.name = name then some v else matchInput inputs name := by
  simp [matchInput]

/-- A matched tensor is one of the given, and has the name. -/
theorem mem_of_matchInput {inputs : List (TensorView R)} {name : String} {v : TensorView R}
    (h : matchInput inputs name = some v) : v ∈ inputs ∧ v.name = name := by
  induction inputs using List.reverseRecOn with
  | nil => cases h
  | append_singleton inputs u ih =>
    rw [matchInput_concat] at h
    split_ifs at h with hname
    · rw [← Option.some.inj h]
      exact ⟨List.mem_append_right _ List.mem_cons_self, hname⟩
    · exact ⟨List.mem_append_left _ (ih h).1, (ih h).2⟩

/-- With distinct names, every given tensor is the match for its name. -/
theorem matchInput_of_mem {inputs : List (TensorView R)}
    (hnd : (inputs.map TensorView.name).Nodup) {v : TensorView R} (hv : v ∈ inputs) :
    matchInput inputs v.name = some v := by
  induction inputs using List.reverseRecOn with
  | nil => cases hv
  | append_singleton inputs u ih =>
    rw [List.map_append, List.nodup_append] at hnd
    rw [matchInput_concat]
    rcases List.mem_append.mp hv with hv | hv
    · have hne : u.name ≠ v.name := fun heq =>
        hnd.2.2 v.name (List.mem_map_of_mem hv) u.name List.mem_cons_self heq.symm
      rw [if_neg hne]
      exact ih hnd.1 hv
    · rw [List.mem_singleton.mp hv, if_pos rfl]

/-- Binding succeeds exactly when every input of the graph is given with its shape. -/
theorem bindInputs_isOk_iff (inputs : List (TensorView R)) (descs : List TensorDesc) :
    (bindInputs inputs descs).isOk = true ↔ ∀ d ∈ descs, Binds inputs d := by
  induction descs with
  | nil => simp [bindInputs, Except.isOk, Except.toBool]
  | cons desc descs ih =>
    rw [List.forall_mem_cons, ← ih, bindInputs]
    cases hmatch : matchInput inputs desc.name with
    | none => simp [Binds, hmatch, Except.isOk, Except.toBool]
    | some v =>
      by_cases hshape : v.shape = desc.shape
      · cases hrest : bindInputs inputs descs <;>
          simp [Binds, hmatch, hshape, Except.isOk, Except.toBool, Except.map]
      · simp [Binds, hmatch, hshape, Except.isOk, Except.toBool]

/-- The text for an input of the graph that is not bound. -/
def Fails (inputs : List (TensorView R)) (d : TensorDesc) (msg : String) : Prop :=
  (matchInput inputs d.name = none ∧ msg = "missing input tensor: " ++ d.name) ∨
    ∃ v, matchInput inputs d.name = some v ∧ v.shape ≠ d.shape ∧
      msg = "shape mismatch for input: " ++ d.name

/-- Binding the first input either fails on it or goes on. -/
theorem bindInputs_cons (inputs : List (TensorView R)) (d : TensorDesc)
    (descs : List TensorDesc) (msg : String) :
    bindInputs inputs (d :: descs) = .error msg ↔
      Fails inputs d msg ∨ Binds inputs d ∧ bindInputs inputs descs = .error msg := by
  rw [bindInputs]
  cases hmatch : matchInput inputs d.name with
  | none => simp [Fails, Binds, hmatch, eq_comm]
  | some v =>
    by_cases hshape : v.shape = d.shape
    · cases hrest : bindInputs inputs descs <;> simp [Fails, Binds, hmatch, hshape, Except.map]
    · simp [Fails, Binds, hmatch, hshape, @eq_comm _ msg]

/-- **What binding fails on.** The text names the first input, in graph order, that is not given, or
whose tensor has another shape.

**Proof sketch.** By induction on the inputs of the graph.  Binding fails either at the first of
them, and then nothing stands before it, or after binding the first, at an input of the rest. -/
theorem bindInputs_eq_error_iff (inputs : List (TensorView R)) (descs : List TensorDesc)
    (msg : String) : bindInputs inputs descs = .error msg ↔
      ∃ pre d post, descs = pre ++ d :: post ∧ (∀ p ∈ pre, Binds inputs p) ∧
        Fails inputs d msg := by
  induction descs with
  | nil => simp [bindInputs]
  | cons desc descs ih =>
    rw [bindInputs_cons, ih]
    constructor
    · rintro (hfails | ⟨hbinds, pre, d, post, rfl, hpre, hfails⟩)
      · exact ⟨[], desc, descs, rfl, List.forall_mem_nil _, hfails⟩
      · exact ⟨desc :: pre, d, post, rfl, List.forall_mem_cons.mpr ⟨hbinds, hpre⟩, hfails⟩
    · rintro ⟨pre, d, post, hsplit, hpre, hfails⟩
      cases pre with
      | nil =>
        obtain ⟨rfl, rfl⟩ := List.cons.inj hsplit
        exact Or.inl hfails
      | cons p pre =>
        obtain ⟨rfl, rfl⟩ := List.cons.inj hsplit
        obtain ⟨hbinds, hpre⟩ := List.forall_mem_cons.mp hpre
        exact Or.inr ⟨hbinds, pre, d, post, rfl, hpre, hfails⟩

/-- The values of a tensor, as the graph gets them. -/
def TensorView.values (v : TensorView R) (d : TensorDesc) : List R := v.data.take d.elements.toNat

/-- Name and shape of a tensor. -/
def TensorView.desc (v : TensorView R) : TensorDesc := ⟨v.name, v.shape⟩

/-- Binding gives the values of the matching tensors, in graph order. -/
theorem bindInputs_map_desc {inputs sorted : List (TensorView R)}
    (h : ∀ v ∈ sorted, matchInput inputs v.name = some v) :
    bindInputs inputs (sorted.map TensorView.desc) =
      .ok (sorted.map fun v => v.values v.desc) := by
  induction sorted with
  | nil => rfl
  | cons v sorted ih =>
    rw [List.forall_mem_cons] at h
    rw [List.map_cons, bindInputs, ih h.2]
    simp only [TensorView.desc, h.1, ne_eq, not_true_eq_false, if_false]
    rfl

/-! ## Calls -/

namespace OrtEngine

variable {e : OrtEngine R}

/-- The given tensors are a rearrangement of the inputs of the graph: as many, and every input is
bound.  The inputs have distinct names, so that each tensor is used once.

**Proof sketch.** A rearrangement has every input of the graph among the given tensors, under a
name that no other tensor has.  Conversely the inputs are then a sublist, up to order, of the
given tensors, and as long as these. -/
theorem binds_iff {descs : List TensorDesc} (hnd : (descs.map TensorDesc.name).Nodup)
    (inputs : List (TensorView R)) :
    (inputs.map TensorView.desc).Perm descs ↔
      inputs.length = descs.length ∧ ∀ d ∈ descs, Binds inputs d := by
  constructor
  · intro hperm
    have hlen := hperm.length_eq
    rw [List.length_map] at hlen
    refine ⟨hlen, fun d hd => ?_⟩
    obtain ⟨v, hv, rfl⟩ := List.mem_map.mp (hperm.mem_iff.mpr hd)
    have hnames : (inputs.map TensorView.name).Nodup := by
      have hmap := hperm.map TensorDesc.name
      rw [List.map_map] at hmap
      exact (hmap.nodup_iff).mpr hnd
    exact ⟨v, matchInput_of_mem hnames hv, rfl⟩
  · rintro ⟨hlen, hbinds⟩
    have hsub : descs ⊆ inputs.map TensorView.desc := by
      intro d hd
      obtain ⟨v, hv, hshape⟩ := hbinds d hd
      obtain ⟨hmem, hname⟩ := mem_of_matchInput hv
      have hdesc : v.desc = d := by rw [TensorView.desc, hname, hshape]
      exact hdesc ▸ List.mem_map_of_mem hmem
    have hsubperm := (List.Nodup.of_map _ hnd).subperm hsub
    exact (hsubperm.perm_of_length_le (by rw [List.length_map, hlen])).symm

/-- Tensors that are a rearrangement of the inputs can be put into graph order. -/
theorem exists_sorted {descs : List TensorDesc} {inputs : List (TensorView R)}
    (h : (inputs.map TensorView.desc).Perm descs) :
    ∃ sorted : List (TensorView R), sorted.Perm inputs ∧ sorted.map TensorView.desc = descs := by
  have hpairs : List.Forall₂ (fun d v => d = TensorView.desc v) (inputs.map TensorView.desc)
      inputs := by
    rw [List.forall₂_map_left_iff, List.forall₂_same]
    exact fun v _ => rfl
  obtain ⟨sorted, hsorted, hperm⟩ := List.perm_comp_forall₂ h.symm hpairs
  have heq : List.Forall₂ (· = ·) descs (sorted.map TensorView.desc) :=
    List.forall₂_map_right_iff.mpr hsorted
  rw [List.forall₂_eq_eq_eq] at heq
  exact ⟨sorted, hperm, heq.symm⟩

/-- **A call with a rearrangement of the inputs** is a call of the graph, on the values in graph
order.

**Proof sketch.** Put the tensors into graph order.  The names are distinct, so each tensor is the
match for its name, and binding collects the values of the sorted tensors. -/
theorem run_of_perm (hnd : (e.inputDescs.map TensorDesc.name).Nodup)
    {inputs : List (TensorView R)} (h : (inputs.map TensorView.desc).Perm e.inputDescs) :
    ∃ sorted : List (TensorView R), sorted.Perm inputs ∧
      sorted.map TensorView.desc = e.inputDescs ∧
      e.run inputs = (e.session.run (sorted.map fun v => v.values v.desc)).map
        (named e.outputDescs) := by
  obtain ⟨sorted, hperm, hdescs⟩ := exists_sorted h
  have hnames : (inputs.map TensorView.name).Nodup := by
    have hmap := h.map TensorDesc.name
    rw [List.map_map] at hmap
    exact (hmap.nodup_iff).mpr hnd
  have hlen : inputs.length = e.inputDescs.length := by
    rw [← h.length_eq, List.length_map]
  have hbind := bindInputs_map_desc fun v hv =>
    matchInput_of_mem hnames (hperm.mem_iff.mp hv)
  rw [hdescs] at hbind
  refine ⟨sorted, hperm, hdescs, ?_⟩
  rw [run, if_neg (not_not_intro hlen), hbind]
  rfl

/-- The order of the given tensors does not matter.

**Proof sketch.** The names are distinct, so looking a name up gives the same tensor in both
orders, and binding looks names up only. -/
theorem run_perm {inputs inputs' : List (TensorView R)}
    (hnd : (inputs.map TensorView.name).Nodup) (hperm : inputs.Perm inputs') :
    e.run inputs = e.run inputs' := by
  have hnd' : (inputs'.map TensorView.name).Nodup := ((hperm.map _).nodup_iff).mp hnd
  have hmatch (name : String) : matchInput inputs name = matchInput inputs' name := by
    cases h : matchInput inputs' name with
    | some v =>
      obtain ⟨hmem, rfl⟩ := mem_of_matchInput h
      exact matchInput_of_mem hnd (hperm.mem_iff.mpr hmem)
    | none =>
      cases h' : matchInput inputs name with
      | none => rfl
      | some v =>
        obtain ⟨hmem, rfl⟩ := mem_of_matchInput h'
        rw [matchInput_of_mem hnd' (hperm.mem_iff.mp hmem)] at h
        cases h
  have hbind (descs : List TensorDesc) : bindInputs inputs descs = bindInputs inputs' descs := by
    induction descs with
    | nil => rfl
    | cons d descs ih => rw [bindInputs, bindInputs, hmatch, ih]
  rw [run, run, hperm.length_eq, hbind]

/-- **A call with other tensors** does not reach the graph: with the right number of tensors the
text is that of the first input, in graph order, that is not bound. -/
theorem run_of_not_perm (hnd : (e.inputDescs.map TensorDesc.name).Nodup)
    {inputs : List (TensorView R)} (hlen : inputs.length = e.inputDescs.length)
    (h : ¬(inputs.map TensorView.desc).Perm e.inputDescs) :
    ∃ pre d post msg, e.inputDescs = pre ++ d :: post ∧ (∀ p ∈ pre, Binds inputs p) ∧
      Fails inputs d msg ∧ e.run inputs = .error msg := by
  cases hbind : bindInputs inputs e.inputDescs with
  | ok values =>
    have hok : (bindInputs inputs e.inputDescs).isOk = true := by rw [hbind]; rfl
    exact absurd ((binds_iff hnd inputs).mpr ⟨hlen, (bindInputs_isOk_iff _ _).mp hok⟩) h
  | error msg =>
    obtain ⟨pre, d, post, hsplit, hpre, hfails⟩ := (bindInputs_eq_error_iff _ _ msg).mp hbind
    refine ⟨pre, d, post, msg, hsplit, hpre, hfails, ?_⟩
    rw [run, if_neg (not_not_intro hlen), hbind]
    rfl

/-! ## Loading -/

/-- Descriptions are accepted as they are, exactly when they are static.

**Proof sketch.** By induction on the descriptions: one with a negative size stops the loading,
and any other is kept as it is. -/
theorem mapM_describe {descs out : List TensorDesc} :
    descs.mapM describe = .ok out ↔ out = descs ∧ ∀ d ∈ descs, ∀ n ∈ d.shape, 0 ≤ n := by
  induction descs generalizing out with
  | nil =>
    constructor
    · intro h
      cases h
      exact ⟨rfl, List.forall_mem_nil _⟩
    · rintro ⟨rfl, -⟩
      rfl
  | cons d descs ih =>
    have hstatic : d.shape.any (· < 0) = false ↔ ∀ n ∈ d.shape, 0 ≤ n := by
      simp [List.any_eq_false]
    rw [List.mapM_cons, describe, List.forall_mem_cons, ← hstatic]
    cases hdynamic : d.shape.any (· < 0) with
    | true => simp [bind, Except.bind]
    | false =>
      cases hrest : descs.mapM describe with
      | error msg =>
        have hnot : ¬∀ d ∈ descs, ∀ n ∈ d.shape, 0 ≤ n := fun hall =>
          absurd (hrest.symm.trans (ih.mpr ⟨rfl, hall⟩)) (by simp)
        simp [bind, Except.bind, hnot]
      | ok rest =>
        obtain ⟨rfl, hall⟩ := ih.mp hrest
        constructor
        · intro h
          exact ⟨(Except.ok.inj h).symm, rfl, hall⟩
        · rintro ⟨rfl, -⟩
          rfl

variable [Zero R] {s : Session R}

/-- The values of the warm-up: a zero tensor for every input. -/
def zeroValues (descs : List TensorDesc) : List (List R) :=
  descs.map fun d => List.replicate d.elements.toNat 0

/-- The warm-up is a call of the graph on zeros. -/
theorem run_zeros (hnd : (e.inputDescs.map TensorDesc.name).Nodup) :
    e.run e.zeros =
      (e.session.run (zeroValues e.inputDescs)).map (named e.outputDescs) := by
  have hdescs : e.zeros.map TensorView.desc = e.inputDescs := by
    rw [zeros, List.map_map]
    exact List.map_id _
  have hnames : (e.zeros.map TensorView.name).Nodup := by
    rw [zeros, List.map_map]
    exact hnd
  have hbind := bindInputs_map_desc fun v hv => matchInput_of_mem hnames hv
  have hvalues : (e.zeros.map fun v => v.values v.desc) = zeroValues e.inputDescs := by
    rw [zeros, List.map_map, zeroValues]
    refine List.map_congr_left fun d _ => ?_
    show (List.replicate d.elements.toNat (0 : R)).take d.elements.toNat = _
    rw [List.take_replicate, min_self]
  rw [hdescs, hvalues] at hbind
  have hlen : e.zeros.length = e.inputDescs.length := by rw [zeros, List.length_map]
  rw [run, if_neg (not_not_intro hlen), hbind]
  rfl

/-- A warm-up changes nothing, and fails only if the graph does not answer on zeros.

**Proof sketch.** The zero tensors have the names and shapes of the graph in its own order, so
they are bound, and only the graph itself can refuse them. -/
theorem warm_eq_ok_iff {e' : OrtEngine R} (hnd : (e.inputDescs.map TensorDesc.name).Nodup)
    (warmup : Bool) : e.warm warmup = .ok e' ↔
      e' = e ∧ (warmup = true → (e.session.run (zeroValues e.inputDescs)).isOk = true) := by
  rw [warm, run_zeros hnd]
  cases warmup with
  | false =>
    constructor
    · intro h
      exact ⟨(Except.ok.inj h).symm, fun hfalse => by cases hfalse⟩
    · rintro ⟨rfl, -⟩
      rfl
  | true =>
    cases e.session.run (zeroValues e.inputDescs) with
    | error msg => simp [Except.map, Except.isOk, Except.toBool]
    | ok outs =>
      constructor
      · intro h
        exact ⟨(Except.ok.inj h).symm, fun _ => rfl⟩
      · rintro ⟨rfl, -⟩
        rfl

/-- **When a graph loads.** Its shapes are static, and with a warm-up the graph answers on zeros.

**Proof sketch.** Loading describes the inputs, then the outputs, and warms up at last; each
stage fails by its own condition only (`mapM_describe`, `warm_eq_ok_iff`). -/
theorem make_eq_ok_iff (hnd : (s.inputs.map TensorDesc.name).Nodup) (warmup : Bool) :
    make s warmup = .ok e ↔ e = ⟨s, s.inputs, s.outputs⟩ ∧
      (∀ d ∈ s.inputs ++ s.outputs, ∀ n ∈ d.shape, 0 ≤ n) ∧
      (warmup = true → (s.run (zeroValues s.inputs)).isOk = true) := by
  rw [make, List.forall_mem_append]
  cases hins : s.inputs.mapM describe with
  | error msg =>
    have hnot : ¬∀ d ∈ s.inputs, ∀ n ∈ d.shape, 0 ≤ n := fun hall =>
      absurd (hins.symm.trans (mapM_describe.mpr ⟨rfl, hall⟩)) (by simp)
    simp [bind, Except.bind, hnot]
  | ok ins =>
    cases houts : s.outputs.mapM describe with
    | error msg =>
      have hnot : ¬∀ d ∈ s.outputs, ∀ n ∈ d.shape, 0 ≤ n := fun hall =>
        absurd (houts.symm.trans (mapM_describe.mpr ⟨rfl, hall⟩)) (by simp)
      simp [bind, Except.bind, hnot]
    | ok outs =>
      obtain ⟨rfl, hinsStatic⟩ := mapM_describe.mp hins
      obtain ⟨rfl, houtsStatic⟩ := mapM_describe.mp houts
      refine (warm_eq_ok_iff hnd warmup).trans (and_congr_right fun _ => ?_)
      rw [and_iff_right ⟨hinsStatic, houtsStatic⟩]

/-- **An engine is called by name.** Let a graph with distinct input names load, with a warm-up or
without one.  Its shapes are static; without a warm-up that is enough, with one it must also answer
on zeros.  A call with a rearrangement of the inputs is a call of the graph on the values in graph
order, whatever the order of the tensors; any other call does not reach the graph, and fails on the
number of the tensors or else on the first input, in graph order, that is not given with its
shape.

**Proof sketch.** Loading and the two kinds of calls are `make_eq_ok_iff`, `run_of_perm` and
`run_of_not_perm`; a rearrangement has the names of the graph, so that `run_perm` applies. -/
theorem engine_by_name (hnd : (s.inputs.map TensorDesc.name).Nodup) (warmup : Bool)
    (h : make s warmup = .ok e) :
    (make s false = .ok e ∧
      (make s true = .ok e ↔ (s.run (zeroValues s.inputs)).isOk = true)) ∧
    (∀ d ∈ e.inputDescs ++ e.outputDescs, ∀ n ∈ d.shape, 0 ≤ n) ∧
    ∀ inputs : List (TensorView R),
      ((inputs.map TensorView.desc).Perm s.inputs →
        (∃ sorted : List (TensorView R), sorted.Perm inputs ∧
          sorted.map TensorView.desc = s.inputs ∧
          e.run inputs = (s.run (sorted.map fun v => v.values v.desc)).map (named s.outputs)) ∧
        ∀ inputs', inputs.Perm inputs' → e.run inputs' = e.run inputs) ∧
      (inputs.length ≠ s.inputs.length → e.run inputs = .error ("engine expects " ++
        toString s.inputs.length ++ " inputs, got " ++ toString inputs.length)) ∧
      (inputs.length = s.inputs.length → ¬(inputs.map TensorView.desc).Perm s.inputs →
        ∃ pre d post msg, s.inputs = pre ++ d :: post ∧ (∀ p ∈ pre, Binds inputs p) ∧
          Fails inputs d msg ∧ e.run inputs = .error msg) := by
  obtain ⟨rfl, hstatic, -⟩ := (make_eq_ok_iff hnd warmup).mp h
  have hwarm := make_eq_ok_iff (e := ⟨s, s.inputs, s.outputs⟩) hnd true
  have hcold := make_eq_ok_iff (e := ⟨s, s.inputs, s.outputs⟩) hnd false
  refine ⟨⟨hcold.mpr ⟨rfl, hstatic, fun hfalse => by cases hfalse⟩, ?_⟩, hstatic, fun inputs =>
    ⟨fun hperm => ⟨run_of_perm (e := ⟨s, s.inputs, s.outputs⟩) hnd hperm, fun inputs' hinputs => ?_⟩,
      fun hlen => if_pos hlen,
      fun hlen hperm =>
      run_of_not_perm (e := ⟨s, s.inputs, s.outputs⟩) hnd hlen hperm⟩⟩
  · rw [hwarm]
    exact ⟨fun hload => hload.2.2 rfl, fun hok => ⟨rfl, hstatic, fun _ => hok⟩⟩
  · have hnames := hperm.map TensorDesc.name
    rw [List.map_map] at hnames
    exact (run_perm ((hnames.nodup_iff).mpr hnd) hinputs).symm

/-- A graph with two inputs of different shapes that rejects negative values. -/
def twoInputs : Session ℚ where
  inputs := [⟨"input1", [1, 2]⟩, ⟨"input2", [1, 1]⟩]
  outputs := [⟨"cls", [1]⟩]
  run values :=
    if values.flatten.any (· < 0) then .error "negative input"
    else .ok [([1], [values.flatten.sum])]

/-- Two tensors in the other order: the graph gets them in its own.  A tensor under another name does
not reach it. -/
theorem engine_by_name_two :
    let e := OrtEngine.mk twoInputs twoInputs.inputs twoInputs.outputs
    (∃ sorted : List (TensorView ℚ), sorted.map TensorView.desc = twoInputs.inputs ∧
      e.run [⟨"input2", [1, 1], [7]⟩, ⟨"input1", [1, 2], [3, 4]⟩] =
        (twoInputs.run (sorted.map fun v => v.values v.desc)).map (named twoInputs.outputs)) ∧
    ∃ msg, e.run [⟨"input1", [1, 2], [3, 4]⟩, ⟨"input3", [1, 1], [7]⟩] = .error msg := by
  intro e
  obtain ⟨-, -, hcall⟩ := engine_by_name (s := twoInputs) (e := e) (by decide) true rfl
  constructor
  · obtain ⟨⟨sorted, -, hdescs, hrun⟩, -⟩ :=
      (hcall [⟨"input2", [1, 1], [7]⟩, ⟨"input1", [1, 2], [3, 4]⟩]).1 (by decide)
    exact ⟨sorted, hdescs, hrun⟩
  · obtain ⟨pre, d, post, msg, -, -, -, herr⟩ :=
      (hcall [⟨"input1", [1, 2], [3, 4]⟩, ⟨"input3", [1, 1], [7]⟩]).2.2 rfl (by decide)
    exact ⟨msg, herr⟩

end OrtEngine

end Ctrk
