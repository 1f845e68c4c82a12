import Mathlib
import TensorCall.Proofs.Conservation
import TensorCall.Proofs.Provision

namespace TensorCall

namespace Circulation

/-- Pipelines are for host executables and sets are called on host executables; an event names
the executable as it is at that moment. -/
inductive Event.Hosted : Event → Prop where
  | create {σ : Type} (h : Host σ) (depth : Nat) : Hosted (.create h depth)
  | acquire (k : Nat) : Hosted (.acquire k)
  | release (j k : Nat) : Hosted (.release j k)
  | drop (j : Nat) : Hosted (.drop j)
  | write (j : Nat) (port : Port) (place : Nat) (p : Payload) : Hosted (.write j port place p)
  | call {σ : Type} (j : Nat) (h : Host σ) : Hosted (.call j h)

def Event.signature? : Event → Option Signature
  | @Event.create _ _ x _ => some (Executable.signature x)
  | _ => none

theorem Event.Hosted.keeps {P : TensorSet → Prop} {id : Nat} {e : Event} (hosted : e.Hosted)
    (alike : ∀ s s', s.Alike s' → P s → P s')
    (made : ∀ {σ : Type} (h : Host σ) depth p, e = .create h depth →
      Pipeline.create id h depth = .ok p → ∀ s, some s ∈ p.entries → P s) : e.Keeps P id := by
  cases hosted with
  | create h depth => exact fun p created => made h depth p rfl created
  | acquire k => trivial
  | release j k => trivial
  | drop j => trivial
  | write j port place p => exact fun s own => alike s _ (s.alike_attempt port place p) own
  | call j h => exact fun s own => alike s _ (s.alike_call h) own

theorem matches_run {events : List Event} {d : Signature} (hosted : ∀ e ∈ events, e.Hosted)
    (bound : ∀ e ∈ events, ∀ d' ∈ e.signature?, d' = d) :
    All (fun s => s.binding.Matches d) (run events) := by
  apply all_run
  rintro before e after rfl
  have mem : e ∈ before ++ e :: after := List.mem_append_right _ List.mem_cons_self
  apply (hosted e mem).keeps
  · exact fun s s' alike => alike.matches
  · rintro σ h depth p rfl created s stored
    have same : h.signature = d := bound _ mem _ rfl
    exact same ▸ (Host.matches_of_create created stored).2

theorem nextId_run {events : List Event} (few : events.countP Event.drawsId < UInt64.size) :
    (run events).nextId.toNat = events.countP Event.drawsId := by
  induction events using List.reverseRecOn with
  | nil => rfl
  | append_singleton events e ih =>
    rw [List.countP_append, List.countP_singleton] at few ⊢
    rw [run_append_singleton, nextId_step]
    cases draws : e.drawsId with
    | false =>
      rw [draws] at few
      simpa using ih (by simpa using few)
    | true =>
      rw [draws, if_pos rfl] at few
      rw [if_pos rfl, if_pos rfl, UInt64.toNat_add, ih (by omega)]
      exact Nat.mod_eq_of_lt few

theorem eq_of_nextId {before before' after after' : List Event} {e e' : Event}
    (same : before ++ e :: after = before' ++ e' :: after')
    (few : (before ++ e :: after).countP Event.drawsId < UInt64.size)
    (draws : e.drawsId = true) (draws' : e'.drawsId = true)
    (ids : (run before).nextId.toNat = (run before').nextId.toNat) : e = e' := by
  have few' := same ▸ few
  rw [List.countP_append, List.countP_cons_of_pos draws] at few
  rw [List.countP_append, List.countP_cons_of_pos draws'] at few'
  rw [nextId_run (by omega), nextId_run (by omega)] at ids
  -- if one event came before the other, it would have drawn an id in between
  rcases List.append_eq_append_iff.mp same with ⟨as, rfl, rest⟩ | ⟨as, rfl, rest⟩
  · cases as with
    | nil => exact (List.cons.inj rest).1
    | cons a as =>
      obtain ⟨rfl, -⟩ := List.cons.inj rest
      rw [List.countP_append, List.countP_cons_of_pos draws] at ids
      omega
  · cases as with
    | nil => exact (List.cons.inj rest).1.symm
    | cons a as =>
      obtain ⟨rfl, -⟩ := List.cons.inj rest
      rw [List.countP_append, List.countP_cons_of_pos draws'] at ids
      omega

/- While ids are not drawn twice, a set belongs to the creation that drew the id it carries. -/
theorem matches_run_of_created {σ : Type} {h : Host σ} {depth : Nat} {p : Pipeline}
    {before after : List Event}
    (hosted : ∀ e ∈ before ++ .create h depth :: after, e.Hosted)
    (few : (before ++ .create h depth :: after).countP Event.drawsId < UInt64.size)
    (created : Pipeline.create (run before).nextId.toNat h depth = .ok p) :
    All (fun s => s.pipeline = p.id → s.binding.Matches h.signature)
      (run (before ++ .create h depth :: after)) := by
  have id : p.id = (run before).nextId.toNat := by
    obtain ⟨-, _, -, rfl⟩ := Pipeline.create_eq_ok created
    rfl
  have draws {τ : Type} {x : Host τ} {n id : Nat} {q : Pipeline}
      (made : Pipeline.create id x n = .ok q) : (Event.create x n).drawsId = true :=
    decide_eq_true (Pipeline.create_eq_ok made).1
  apply all_run
  intro before' e after' same
  have mem : e ∈ before ++ .create h depth :: after :=
    same ▸ List.mem_append_right _ List.mem_cons_self
  apply (hosted e mem).keeps
  · intro s s' alike own home
    exact alike.matches (own (alike.pipeline.symm.trans home))
  · rintro τ x n q rfl made s stored home
    obtain ⟨pipeline, fits⟩ := Host.matches_of_create made stored
    have ids : (run before).nextId.toNat = (run before').nextId.toNat :=
      id.symm.trans (home.symm.trans pipeline)
    -- a pipeline with this id is the one that was created here
    have event := eq_of_nextId same few (draws created) (draws made) ids
    have signature : h.signature = x.signature :=
      Option.some.inj (congrArg Event.signature? event)
    exact signature ▸ fits

end Circulation

namespace Host

open Circulation

variable {σ : Type}

/-- A binding of tensors that the executable made for its slots is accepted, whatever happened to
them since, and so are the sets of its pipelines. With pipelines for other signatures about, ids
must not run out: `few` counts every creation of positive depth, also those that fail. -/
theorem provided_accepted (h : Host σ) :
    (∀ b : Binding, (∀ port, (b.tensors port).length = (h.signature.slots port).length) →
      (∀ port i t, (b.tensors port)[i]? = some t → ∃ t₀, h.Provides port i t₀ ∧ t₀.Becomes t) →
      Executable.validate h b = .ok ()) ∧
    (∀ events : List Event, (∀ e ∈ events, e.Hosted) →
      (∀ e ∈ events, ∀ d ∈ e.signature?, d = h.signature) →
      ∀ s ∈ (run events).held, Executable.validate h s.binding = .ok ()) ∧
    (∀ before depth p after, let events : List Event := before ++ .create h depth :: after
      (∀ e ∈ events, e.Hosted) → events.countP Event.drawsId < UInt64.size →
      Pipeline.create (run before).nextId.toNat h depth = .ok p →
      ∀ s ∈ (run events).held, s.pipeline = p.id → Executable.validate h s.binding = .ok ()) := by
  refine ⟨?_, ?_, ?_⟩
  · intro b lengths provided
    have fits : b.Matches h.signature := by
      intro port
      apply outlines_eq_map (lengths port)
      intro i t given
      obtain ⟨t₀, made, changes⟩ := provided port i t given
      obtain ⟨slot, declared, same⟩ := made.outline
      exact ⟨slot, declared, changes.outline.trans same⟩
    exact fits.accepted
  · intro events hosted bound s held
    exact ((matches_run hosted bound).held s held).accepted
  · intro before depth p after events hosted few created s held home
    exact ((matches_run_of_created hosted few created).held s held home).accepted

/- A set is written to, called by a kernel that writes its output and then fails, given back and
acquired again; a pipeline of another executable has drawn the first id. -/
theorem provided_accepted_recycled :
    let s : Signature := ⟨[⟨"x", .u8, .static [2]⟩], [⟨"y", .u8, .ranked [.unknown]⟩]⟩
    let h : Host Nat := ⟨"f", s, 2, Script.kernel [[.write 0 ⟨.u8, [7], [1]⟩, .fail (.io "")]], 0⟩
    let k : Host Nat := ⟨"g", ⟨[⟨"x", .i32, .static []⟩], []⟩, 2, Script.kernel [[]], 0⟩
    let own : List Event := [.create h 1, .acquire 0, .write 0 .input 0 ⟨.u8, [1, 2], [2]⟩,
      .call 0 h, .release 0 0, .acquire 0]
    let mixed : List Event := [.create k 1, .acquire 0, .create h 1, .acquire 1, .call 1 h]
    Executable.validate h ⟨[.holding .u8 ⟨[5, 6], [2]⟩], [.unallocated .u8 (.ranked [.unknown])]⟩ =
        .ok () ∧
      (∃ t ∈ (run own).held, t.outputs.map Tensor.dims? = [some [1]] ∧
        Executable.validate h t.binding = .ok ()) ∧
      ∃ t ∈ (run mixed).held, t.pipeline = 1 ∧ Executable.validate h t.binding = .ok () := by
  intro s h k own mixed
  obtain ⟨made, alone, among⟩ := provided_accepted h
  let x : Tensor := .holding .u8 ⟨[5, 6], [2]⟩
  let y : Tensor := .unallocated .u8 (.ranked [.unknown])
  have wrapped : h.createOver .input 0 [5, 6] = .ok x := rfl
  have waiting : h.create .output 0 = .ok y := rfl
  have hosted : ∀ e ∈ own, e.Hosted := by
    simp only [own, List.forall_mem_cons]
    exact ⟨.create h 1, .acquire 0, .write .., .call 0 h, .release 0 0, .acquire 0, nofun⟩
  have bound : ∀ e ∈ own, ∀ d ∈ e.signature?, d = s := by
    simp [own, Event.signature?, Executable.signature, h]
  have mixedHosted : ∀ e ∈ mixed, e.Hosted := by
    simp only [mixed, List.forall_mem_cons]
    exact ⟨.create k 1, .acquire 0, .create h 1, .acquire 1, .call 1 h, nofun⟩
  let filled : Tensor := ⟨.u8, .ranked [.unknown], some ⟨[7], [1]⟩, true⟩
  let t : TensorSet := ⟨0, 0, [⟨.u8, .static [2], some ⟨[1, 2], [2]⟩, true⟩], [filled]⟩
  let u : TensorSet := ⟨1, 0, [.holding .u8 ⟨[0, 0], [2]⟩], [filled]⟩
  have mem : t ∈ (run own).held := List.mem_of_getElem? (show (run own).held[0]? = some t from rfl)
  have mem' : u ∈ (run mixed).held :=
    List.mem_of_getElem? (show (run mixed).held[1]? = some u from rfl)
  let p : Pipeline := ⟨1, .full 1, [some ⟨1, 0, u.inputs, [y]⟩]⟩
  have created : Pipeline.create (run [.create k 1, .acquire 0]).nextId.toNat h 1 = .ok p := rfl
  refine ⟨made _ ?_ ?_, ⟨t, mem, rfl, alone own hosted bound t mem⟩, u, mem', rfl, ?_⟩
  · rintro (_ | _) <;> rfl
  · intro port i v given
    cases port with
    | input =>
      cases i with
      | zero =>
        cases given
        exact ⟨x, .createdOver wrapped, .refl⟩
      | succ i => cases given
    | output =>
      cases i with
      | zero =>
        cases given
        exact ⟨y, .created waiting, .refl⟩
      | succ i => cases given
  · exact among [.create k 1, .acquire 0] 1 p _ mixedHosted (by decide) created u mem' rfl

end Host

end TensorCall
