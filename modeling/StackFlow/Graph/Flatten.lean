import StackFlow.Semantics.Joint

/-!
Flat code: groups are spliced in, and a block that protects the topmost items becomes its body
between two markers that move the boundary of the stack. Branching instructions keep their code
arguments.

The walk keeps a worklist of code lists, innermost first, so that nesting costs no recursion.
-/

namespace StackFlow

open Micheline (Instruction Arg Code)

/-- Moves the boundary of the stack by `delta`. -/
def marker (delta : Int) : Instruction :=
  .op "CURSOR" [] [.literal (.int (Decimal.text delta))]

def isMarker (i : Instruction) : Bool := i.name == "CURSOR"

/-- The distance of a marker. -/
def markerDelta (i : Instruction) : Int := i.intArg 0 0

/-- The number of items that a `DIP` protects. -/
def dipLevel (i : Instruction) : Int := i.intArg 0 1

/-- The body of a `DIP`: its last code argument. -/
def dipBody (i : Instruction) : Code := i.codeArgs.getLast?.getD []

/-- A code list on the worklist, and the marker that closes it. -/
structure Frame where
  pending : Code
  trailer : Option Instruction := none

namespace Frame

/-- The work that the frames still hold. -/
noncomputable def work : List Frame → Nat
  | [] => 0
  | f :: fs => sizeOf f.pending + 1 + work fs

@[simp] theorem work_nil : work [] = 0 := rfl

@[simp] theorem work_cons (f : Frame) (fs : List Frame) :
    work (f :: fs) = sizeOf f.pending + 1 + work fs := rfl

end Frame

theorem sizeOf_codeArg {i : Instruction} {code : Code} (h : code ∈ i.codeArgs) :
    sizeOf code < sizeOf i := by
  obtain ⟨a, ha, hc⟩ := List.mem_filterMap.1 h
  cases i with
  | group body => simp [Instruction.args] at ha
  | op name annots args =>
    cases a with
    | literal e => simp [Arg.code?] at hc
    | code body =>
      simp only [Arg.code?, Option.some.injEq] at hc
      subst hc
      have := List.sizeOf_lt_of_mem (show Arg.code body ∈ args from ha)
      simp only [Arg.code.sizeOf_spec] at this
      simp only [Instruction.op.sizeOf_spec]
      omega

theorem sizeOf_instruction (i : Instruction) : 1 < sizeOf i := by
  cases i with
  | op name annots args =>
    simp only [Instruction.op.sizeOf_spec]
    cases args <;> simp only [List.nil.sizeOf_spec, List.cons.sizeOf_spec] <;> omega
  | group body =>
    simp only [Instruction.group.sizeOf_spec]
    cases body <;> simp only [List.nil.sizeOf_spec, List.cons.sizeOf_spec] <;> omega

theorem sizeOf_dipBody (i : Instruction) : sizeOf (dipBody i) < sizeOf i := by
  unfold dipBody
  cases h : i.codeArgs.getLast? with
  | none => simpa using sizeOf_instruction i
  | some code => exact sizeOf_codeArg (List.mem_of_getLast? h)

theorem sizeOf_body (i : Instruction) : sizeOf i.body < sizeOf i := by
  cases i with
  | op name annots args => simpa [Instruction.body] using sizeOf_instruction (.op name annots args)
  | group body => simp [Instruction.body]

def flattenLoop (frames : List Frame) (out : Array Instruction) : Array Instruction :=
  match frames with
  | [] => out
  | ⟨[], none⟩ :: fs => flattenLoop fs out
  | ⟨[], some t⟩ :: fs => flattenLoop fs (out.push t)
  | ⟨i :: rest, t⟩ :: fs =>
    if i.isGroup then flattenLoop (⟨i.body, none⟩ :: ⟨rest, t⟩ :: fs) out
    else if i.name == "DIP" then
      flattenLoop (⟨dipBody i, some (marker (wrap (-dipLevel i)))⟩ :: ⟨rest, t⟩ :: fs)
        (out.push (marker (dipLevel i)))
    else flattenLoop (⟨rest, t⟩ :: fs) (out.push i)
termination_by Frame.work frames
decreasing_by
  · simp
  · simp
  · have := sizeOf_body i
    simp only [Frame.work_cons, List.cons.sizeOf_spec]
    omega
  · have := sizeOf_dipBody i
    simp only [Frame.work_cons, List.cons.sizeOf_spec]
    omega
  · have := sizeOf_instruction i
    simp only [Frame.work_cons, List.cons.sizeOf_spec]
    omega

def flatten (code : Code) : Code := (flattenLoop [⟨code, none⟩] #[]).toList

/-- The sum of the markers of a flat list. -/
def cursorDelta (flat : Code) : Int :=
  flat.foldl (fun sum i => if isMarker i then wrap (sum + markerDelta i) else sum) 0

mutual

/-- The number of branching instructions, nested ones included. -/
def jointsOf : Instruction → Nat
  | .op name _ args => (if (Joint.ofName? name).isSome then 1 else 0) + jointsOfArgs args
  | .group body => jointCount body

def jointsOfArgs : List Arg → Nat
  | [] => 0
  | .literal _ :: as => jointsOfArgs as
  | .code body :: as => jointCount body + jointsOfArgs as

def jointCount : List Instruction → Nat
  | [] => 0
  | i :: is => jointsOf i + jointCount is

end

theorem jointCount_append (a b : Code) : jointCount (a ++ b) = jointCount a + jointCount b := by
  induction a with
  | nil => simp [jointCount]
  | cons i is ih => simp [jointCount, ih]; omega

theorem jointCount_codeArg {i : Instruction} {code : Code} (h : code ∈ i.codeArgs) :
    jointCount code ≤ jointsOfArgs i.args := by
  obtain ⟨a, ha, hc⟩ := List.mem_filterMap.1 h
  generalize i.args = args at ha
  induction args with
  | nil => simp at ha
  | cons b bs ih =>
    rcases List.mem_cons.1 ha with rfl | ha
    · cases a with
      | literal e => simp [Arg.code?] at hc
      | code body =>
        simp only [Arg.code?, Option.some.injEq] at hc
        subst hc
        simp [jointsOfArgs]
    · have := ih ha
      cases b <;> simp [jointsOfArgs] <;> omega

theorem jointsOfArgs_le (i : Instruction) : jointsOfArgs i.args ≤ jointsOf i := by
  cases i <;> simp [jointsOf, Instruction.args, jointsOfArgs]

theorem jointCount_body (i : Instruction) : jointCount i.body ≤ jointsOf i := by
  cases i <;> simp [jointsOf, Instruction.body, jointCount]

theorem jointCount_dipBody (i : Instruction) : jointCount (dipBody i) ≤ jointsOf i := by
  unfold dipBody
  cases h : i.codeArgs.getLast? with
  | none => simp [jointCount]
  | some code =>
    exact Nat.le_trans (jointCount_codeArg (List.mem_of_getLast? h)) (jointsOfArgs_le i)

@[simp] theorem jointsOf_marker (delta : Int) : jointsOf (marker delta) = 0 := by
  simp [marker, jointsOf, jointsOfArgs, Joint.ofName?, Joint.all, Joint.name, List.find?]

def Frame.joints (f : Frame) : Nat :=
  jointCount f.pending + (f.trailer.map jointsOf).getD 0

def Frame.jointsOfAll : List Frame → Nat
  | [] => 0
  | f :: fs => f.joints + Frame.jointsOfAll fs

/-- Flattening adds no branching instruction. -/
theorem jointCount_flattenLoop (frames : List Frame) (out : Array Instruction) :
    jointCount (flattenLoop frames out).toList
      ≤ jointCount out.toList + Frame.jointsOfAll frames := by
  fun_induction flattenLoop frames out with
  | case1 out => simp [Frame.jointsOfAll]
  | case2 out fs ih => simpa [Frame.joints, Frame.jointsOfAll, jointCount] using ih
  | case3 out t fs ih =>
    simp [jointCount_append, jointCount, Frame.joints, Frame.jointsOfAll] at ih ⊢
    omega
  | case4 out i rest t fs group ih =>
    have := jointCount_body i
    simp [Frame.joints, Frame.jointsOfAll, jointCount] at ih ⊢
    omega
  | case5 out i rest t fs group dip ih =>
    have := jointCount_dipBody i
    simp [Frame.joints, Frame.jointsOfAll, jointCount, jointCount_append] at ih ⊢
    omega
  | case6 out i rest t fs group dip ih =>
    simp [Frame.joints, Frame.jointsOfAll, jointCount, jointCount_append] at ih ⊢
    omega

theorem jointCount_flatten (code : Code) : jointCount (flatten code) ≤ jointCount code := by
  simpa [flatten, Frame.joints, Frame.jointsOfAll, jointCount] using jointCount_flattenLoop [⟨code, none⟩] #[]

end StackFlow
