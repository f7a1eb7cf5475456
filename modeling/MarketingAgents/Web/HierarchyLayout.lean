import Mathlib

namespace MarketingAgents

/-! # The layout of the hierarchy

Positions of the root, the department and function headers, the function groups
and the cards, and the connectors between them. Every width is a multiple of
four, so that halves are whole numbers.
-/

namespace GEOMETRY

def rootWidth : Int := 148
def rootHeight : Int := 38
def rootTop : Int := 0
def rootBusY : Int := 64
def departmentWidth : Int := 140
def departmentHeight : Int := 34
def departmentTop : Int := 92
def departmentBusY : Int := 152
def departmentGapX : Int := 20
def functionWidth : Int := 112
def functionHeaderHeight : Int := 36
def functionTop : Int := 178
def functionGapX : Int := 8
def cardInsetX : Int := 4
def cardWidth : Int := 104
def cardHeight : Int := 80
def cardGapY : Int := 8
def cardGroupTop : Int := 226
def cardTop : Int := 230

attribute [simp] rootWidth rootHeight rootTop rootBusY departmentWidth departmentHeight
  departmentTop departmentBusY
  departmentGapX functionWidth functionHeaderHeight functionTop functionGapX cardInsetX cardWidth
    cardHeight cardGapY
  cardGroupTop cardTop

end GEOMETRY

open GEOMETRY

structure Rect where
  x : Int
  y : Int
  width : Int
  height : Int
deriving DecidableEq

structure LayoutLine where
  id : String
  x1 : Int
  y1 : Int
  x2 : Int
  y2 : Int
deriving DecidableEq

structure CapabilitySummary where
  id : String

structure AgentInstance where
  id : String
  templateId : String
  capabilitySummaries : List CapabilitySummary

structure AgentFunction where
  id : String
  instances : List AgentInstance

structure AgentDepartment where
  id : String
  functions : List AgentFunction

structure InstanceLayout extends Rect where
  id : String
  templateId : String
  departmentId : String
  functionId : String

structure FunctionLayout extends Rect where
  id : String
  header : Rect
  instances : List InstanceLayout

structure DepartmentLayout extends Rect where
  id : String
  header : Rect
  functions : List FunctionLayout

structure HierarchyLayout where
  bounds : Rect
  root : Rect
  departments : List DepartmentLayout
  lines : List LayoutLine
  instanceById : List (String × InstanceLayout)

def groupHeight (instanceCount : Nat) : Int :=
  8 + instanceCount * cardHeight + max 0 ((instanceCount : Int) - 1) * cardGapY

def AgentDepartment.extentWidth (department : AgentDepartment) : Int :=
  department.functions.length * functionWidth +
    max 0 ((department.functions.length : Int) - 1) * functionGapX

def contentWidth (departments : List AgentDepartment) : Int :=
  departments.zipIdx.foldl
    (fun width entry => width + entry.1.extentWidth + if entry.2 = 0 then 0 else departmentGapX) 0

def tallestInstanceCount (departments : List AgentDepartment) : Nat :=
  departments.foldl
    (fun maximum department => (department.functions.map (·.instances.length)).foldl max maximum) 0

def placeInstance (departmentId functionId : String) (x : Int) (instanceIndex : Nat)
    (agentInstance : AgentInstance) : InstanceLayout where
  id := agentInstance.id
  templateId := agentInstance.templateId
  departmentId
  functionId
  x := x + cardInsetX
  y := cardTop + instanceIndex * (cardHeight + cardGapY)
  width := cardWidth
  height := cardHeight

def placeFunction (departmentId : String) (departmentX : Int) (functionIndex : Nat)
    (agentFunction : AgentFunction) :
    FunctionLayout :=
  let x := departmentX + functionIndex * (functionWidth + functionGapX)
  { id := agentFunction.id
    x
    y := cardGroupTop
    width := functionWidth
    height := groupHeight agentFunction.instances.length
    header := ⟨x, functionTop, functionWidth, functionHeaderHeight⟩
    instances := agentFunction.instances.mapIdx (placeInstance departmentId agentFunction.id x) }

def placeDepartment (worldHeight departmentX : Int) (department : AgentDepartment) :
    DepartmentLayout where
  id := department.id
  x := departmentX
  y := departmentTop
  width := department.extentWidth
  height := worldHeight - departmentTop
  header := ⟨departmentX + department.extentWidth / 2 - departmentWidth / 2, departmentTop,
    departmentWidth, departmentHeight⟩
  functions := department.functions.mapIdx (placeFunction department.id departmentX)

def placeDepartments (worldHeight : Int) : Int → List AgentDepartment → List DepartmentLayout
  | _, [] => []
  | departmentX, department :: rest =>
      placeDepartment worldHeight departmentX department ::
        placeDepartments worldHeight (departmentX + department.extentWidth + departmentGapX) rest

def DepartmentLayout.center (department : DepartmentLayout) : Int :=
  department.x + department.width / 2

def FunctionLayout.center (agentFunction : FunctionLayout) : Int :=
  agentFunction.x + functionWidth / 2

def functionLines (departmentIndex functionIndex : Nat) (agentFunction : FunctionLayout) :
    List LayoutLine :=
  let name := "department-" ++ toString departmentIndex ++ "-function-" ++ toString functionIndex
  [⟨name ++ "-drop", agentFunction.center, departmentBusY, agentFunction.center, functionTop⟩,
    ⟨name ++ "-stem", agentFunction.center, functionTop + functionHeaderHeight,
      agentFunction.center, cardGroupTop⟩]

def departmentLines (departmentIndex : Nat) (department : DepartmentLayout) : List LayoutLine :=
  let name := "department-" ++ toString departmentIndex
  let functionCenters := department.functions.map (·.center)
  [⟨name ++ "-drop", department.center, rootBusY, department.center, departmentTop⟩,
    ⟨name ++ "-trunk", department.center, departmentTop + departmentHeight, department.center,
      departmentBusY⟩,
    ⟨name ++ "-bus", functionCenters.head?.getD department.center, departmentBusY,
      functionCenters.getLast?.getD department.center, departmentBusY⟩] ++
    (department.functions.mapIdx (functionLines departmentIndex)).flatten

/-- Set one entry of a map. -/
def setEntry {α : Type} (entries : List (String × α)) (key : String) (value : α) :
    List (String × α) :=
  if entries.any fun entry => entry.1 = key then
    entries.map fun entry => if entry.1 = key then (key, value) else entry
  else entries ++ [(key, value)]

def worldWidth (hierarchy : List AgentDepartment) : Int := max (contentWidth hierarchy) rootWidth

def worldHeight (hierarchy : List AgentDepartment) : Int :=
  cardGroupTop + groupHeight (tallestInstanceCount hierarchy)

/-- The departments in their row, which is centred below the root. -/
def departmentRow (hierarchy : List AgentDepartment) : List DepartmentLayout :=
  placeDepartments (worldHeight hierarchy)
    ((worldWidth hierarchy - contentWidth hierarchy) / 2) hierarchy

def connectors (worldWidth : Int) (departments : List DepartmentLayout) : List LayoutLine :=
  let departmentCenters := departments.map (·.center)
  [⟨"root-trunk", worldWidth / 2, rootHeight, worldWidth / 2, rootBusY⟩,
    ⟨"root-bus", departmentCenters.head?.getD 0, rootBusY,
      departmentCenters.getLast?.getD worldWidth, rootBusY⟩] ++
    (departments.mapIdx departmentLines).flatten

def layoutHierarchy (hierarchy : List AgentDepartment) : Option HierarchyLayout :=
  let departments := departmentRow hierarchy
  let instances := departments.flatMap fun department => department.functions.flatMap (·.instances)
  -- Without a department the layout is refused.
  if departments.isEmpty then none
  else some {
    bounds := ⟨0, 0, worldWidth hierarchy, worldHeight hierarchy⟩
    root := ⟨worldWidth hierarchy / 2 - rootWidth / 2, rootTop, rootWidth, rootHeight⟩
    departments
    lines := connectors (worldWidth hierarchy) departments
    instanceById := instances.foldl (fun entries placed => setEntry entries placed.id placed) [] }

structure Point where
  x : Int
  y : Int

def Rect.Inside (box bounds : Rect) : Prop :=
  bounds.x ≤ box.x ∧ bounds.y ≤ box.y ∧ box.x + box.width ≤ bounds.x + bounds.width ∧
    box.y + box.height ≤ bounds.y + bounds.height

/-- The boxes share no point of their interiors. -/
def Rect.Apart (first second : Rect) : Prop :=
  first.x + first.width ≤ second.x ∨ second.x + second.width ≤ first.x ∨
    first.y + first.height ≤ second.y ∨
    second.y + second.height ≤ first.y

/-- The point is on the upper or the lower edge of the box. -/
def Rect.OnEdge (box : Rect) (point : Point) : Prop :=
  (point.y = box.y ∨ point.y = box.y + box.height) ∧ box.x ≤ point.x ∧ point.x ≤ box.x + box.width

def LayoutLine.ends (line : LayoutLine) : List Point := [⟨line.x1, line.y1⟩, ⟨line.x2, line.y2⟩]

def LayoutLine.Vertical (line : LayoutLine) : Prop := line.x1 = line.x2 ∧ line.y1 < line.y2

def LayoutLine.Horizontal (line : LayoutLine) : Prop := line.y1 = line.y2 ∧ line.x1 ≤ line.x2

/-- The point is on a horizontal connector. -/
def LayoutLine.OnBus (line : LayoutLine) (point : Point) : Prop :=
  line.Horizontal ∧ point.y = line.y1 ∧ line.x1 ≤ point.x ∧ point.x ≤ line.x2

/-- The point is on a vertical connector. -/
def LayoutLine.OnDrop (line : LayoutLine) (point : Point) : Prop :=
  line.Vertical ∧ point.x = line.x1 ∧ line.y1 ≤ point.y ∧ point.y ≤ line.y2

namespace HierarchyLayout

def departmentHeaders (layout : HierarchyLayout) : List Rect := layout.departments.map (·.header)

/-- The boxes that each function of the layout contributes. -/
def functionBoxes (layout : HierarchyLayout) (boxes : FunctionLayout → List Rect) : List Rect :=
  layout.departments.flatMap (·.functions.flatMap boxes)

def functionHeaders (layout : HierarchyLayout) : List Rect :=
  layout.functionBoxes fun placed => [placed.header]

def functionGroups (layout : HierarchyLayout) : List Rect :=
  layout.functionBoxes fun placed => [placed.toRect]

def cards (layout : HierarchyLayout) : List Rect :=
  layout.functionBoxes fun placed => placed.instances.map (·.toRect)

def boxes (layout : HierarchyLayout) : List Rect :=
  layout.root :: (layout.departmentHeaders ++ layout.functionHeaders ++
    layout.functionGroups ++ layout.cards)

/-- A vertical connector ends on boxes or buses, a bus on vertical connectors. -/
def Joined (layout : HierarchyLayout) (line : LayoutLine) : Prop :=
  (line.Vertical ∧ ∀ point ∈ line.ends,
      (∃ box ∈ layout.boxes, box.OnEdge point) ∨ ∃ bus ∈ layout.lines, bus.OnBus point) ∨
    (line.Horizontal ∧ ∀ point ∈ line.ends, ∃ drop ∈ layout.lines, drop.OnDrop point)

structure WellPlaced (layout : HierarchyLayout) : Prop where
  inside : ∀ box ∈ layout.boxes, box.Inside layout.bounds
  departmentHeaders_apart : layout.departmentHeaders.Pairwise Rect.Apart
  functionHeaders_apart : layout.functionHeaders.Pairwise Rect.Apart
  functionGroups_apart : layout.functionGroups.Pairwise Rect.Apart
  cards_apart : layout.cards.Pairwise Rect.Apart
  cards_grouped : ∀ department ∈ layout.departments, ∀ placed ∈ department.functions,
    ∀ card ∈ placed.instances, card.toRect.Inside placed.toRect
  joined : ∀ line ∈ layout.lines, layout.Joined line

end HierarchyLayout

/-- A department header is wider than a department of one function. With more than one department it
therefore needs a second function in the first and in the last department, and in one of each two
neighbours. -/
def HeadersFit (hierarchy : List AgentDepartment) : Prop :=
  hierarchy.length = 1 ∨
    (∀ department ∈ hierarchy.head?, 2 ≤ department.functions.length) ∧
      (∀ department ∈ hierarchy.getLast?, 2 ≤ department.functions.length) ∧
        hierarchy.IsChain fun left right => 2 ≤ left.functions.length ∨ 2 ≤ right.functions.length

/-- What the filtered projection leaves: every department has a function and every function an
instance. -/
structure Populated (department : AgentDepartment) : Prop where
  functions : 0 < department.functions.length
  instances : ∀ agentFunction ∈ department.functions, 0 < agentFunction.instances.length

theorem groupHeight_populated {instanceCount : Nat} (populated : 0 < instanceCount) :
    groupHeight instanceCount = 88 * instanceCount := by
  simp only [groupHeight, cardHeight, cardGapY]
  omega

theorem Populated.extentWidth (populated : Populated department) :
    department.extentWidth = 120 * department.functions.length - 8 := by
  have functions := populated.functions
  simp only [AgentDepartment.extentWidth, functionWidth, functionGapX]
  omega

/-- The room a row of departments takes, with a gap after each of them. -/
def rowWidth (departments : List AgentDepartment) : Int :=
  (departments.map fun department => department.extentWidth + departmentGapX).sum

@[simp]
theorem rowWidth_nil : rowWidth [] = 0 := rfl

@[simp]
theorem rowWidth_cons (department : AgentDepartment) (rest : List AgentDepartment) :
    rowWidth (department :: rest) = department.extentWidth + departmentGapX + rowWidth rest := rfl

theorem contentWidth_from (departments : List AgentDepartment) (start : Nat) (width : Int) :
    (departments.zipIdx (start + 1)).foldl
      (fun width entry => width + entry.1.extentWidth + if entry.2 = 0 then 0
        else departmentGapX) width =
    width + rowWidth departments := by
  induction departments generalizing start width with
  | nil => simp
  | cons department rest ih =>
      rw [List.zipIdx_cons, List.foldl_cons, ih, rowWidth_cons, if_neg (Nat.succ_ne_zero start)]
      dsimp only
      omega

theorem contentWidth_cons (department : AgentDepartment) (rest : List AgentDepartment) :
    contentWidth (department :: rest) = department.extentWidth + rowWidth rest := by
  have later := contentWidth_from rest 0 (0 + department.extentWidth + 0)
  rw [contentWidth, List.zipIdx_cons, List.foldl_cons]
  dsimp only
  rw [if_pos rfl, later]
  omega

theorem rowWidth_nonneg {departments : List AgentDepartment}
    (populated : ∀ department ∈ departments, Populated department) :
    0 ≤ rowWidth departments ∧ rowWidth departments % 4 = 0 := by
  induction departments with
  | nil => simp
  | cons department rest ih =>
      have width := (populated department (by simp)).extentWidth
      have functions := (populated department (by simp)).functions
      have later := ih fun other member => populated other (by simp [member])
      rw [rowWidth_cons, width, departmentGapX]
      omega

theorem le_foldl_max (counts : List Nat) (maximum : Nat) :
    maximum ≤ counts.foldl max maximum ∧ ∀ count ∈ counts, count ≤ counts.foldl max maximum := by
  induction counts generalizing maximum with
  | nil => simp
  | cons count rest ih =>
      have later := ih (max maximum count)
      rw [List.foldl_cons]
      refine ⟨by omega, fun other member => ?_⟩
      rcases List.mem_cons.mp member with rfl | member
      · omega
      · exact later.2 other member

theorem tallest_from (departments : List AgentDepartment) (maximum : Nat) :
    maximum ≤ departments.foldl
        (fun maximum department => (department.functions.map (·.instances.length)).foldl max
          maximum) maximum ∧
      ∀ department ∈ departments, ∀ agentFunction ∈ department.functions,
        agentFunction.instances.length ≤ departments.foldl
          (fun maximum department => (department.functions.map (·.instances.length)).foldl max
            maximum) maximum := by
  induction departments generalizing maximum with
  | nil => simp
  | cons department rest ih =>
      have here := le_foldl_max (department.functions.map (·.instances.length)) maximum
      have later := ih ((department.functions.map (·.instances.length)).foldl max maximum)
      rw [List.foldl_cons]
      refine ⟨by omega, fun other member agentFunction inner => ?_⟩
      rcases List.mem_cons.mp member with rfl | member
      · have counted := here.2 agentFunction.instances.length (List.mem_map_of_mem inner)
        omega
      · exact later.2 other member agentFunction inner

section Row

variable {worldHeight departmentX : Int} {departments : List AgentDepartment}

theorem placeDepartments_mem {placed : DepartmentLayout}
    (member : placed ∈ placeDepartments worldHeight departmentX departments)
    (populated : ∀ department ∈ departments, Populated department) :
    ∃ department ∈ departments, ∃ x, placed = placeDepartment worldHeight x department ∧
    departmentX ≤ x ∧
      x + department.extentWidth + departmentGapX ≤ departmentX + rowWidth departments := by
  induction departments generalizing departmentX with
  | nil => simp [placeDepartments] at member
  | cons department rest ih =>
      have width := (populated department (by simp)).extentWidth
      have functions := (populated department (by simp)).functions
      have room := rowWidth_nonneg fun other member =>
        populated other (List.mem_cons_of_mem department member)
      rw [rowWidth_cons]
      rcases List.mem_cons.mp member with rfl | member
      · exact ⟨department, by simp, departmentX, rfl, by omega, by omega⟩
      · obtain ⟨other, inner, x, rfl, left, right⟩ :=
          ih member fun other inner => populated other (by simp [inner])
        refine ⟨other, by simp [inner], x, rfl, ?_, ?_⟩
        · simp only [departmentGapX] at left
          omega
        · omega

theorem placeDepartments_apart (populated : ∀ department ∈ departments, Populated department) :
    (placeDepartments worldHeight departmentX departments).Pairwise fun left right =>
      left.x + left.width + departmentGapX ≤ right.x := by
  induction departments generalizing departmentX with
  | nil => simp [placeDepartments]
  | cons department rest ih =>
      have later : ∀ other ∈ rest, Populated other :=
        fun other member => populated other (by simp [member])
      rw [placeDepartments, List.pairwise_cons]
      refine ⟨fun right member => ?_, ih later⟩
      obtain ⟨other, _, x, rfl, left, _⟩ := placeDepartments_mem member later
      exact left

theorem placeDepartments_last {placed : DepartmentLayout}
    (last : placed ∈ (placeDepartments worldHeight departmentX departments).getLast?) :
    ∃ department ∈ departments.getLast?, ∃ x, placed = placeDepartment worldHeight x department ∧
      x + department.extentWidth + departmentGapX = departmentX + rowWidth departments := by
  induction departments generalizing departmentX with
  | nil => simp [placeDepartments] at last
  | cons department rest ih =>
      cases rest with
      | nil =>
          have same : placed = placeDepartment worldHeight departmentX department := by
            simpa [placeDepartments] using last.symm
          exact ⟨department, rfl, departmentX, same, by rw [rowWidth_cons, rowWidth_nil]; omega⟩
      | cons next rest =>
          obtain ⟨other, final, x, same, right⟩ := ih last
          refine ⟨other, final, x, same, ?_⟩
          rw [rowWidth_cons, right]
          omega

theorem headers_after {bound : Int} (populated : ∀ department ∈ departments, Populated department)
    (start : bound ≤ departmentX - 14 ∨
      bound ≤ departmentX ∧ ∀ department ∈ departments.head?, 2 ≤ department.functions.length) :
    ∀ placed ∈ placeDepartments worldHeight departmentX departments, bound ≤ placed.header.x := by
  induction departments generalizing departmentX with
  | nil => simp [placeDepartments]
  | cons department rest ih =>
      have width := (populated department (by simp)).extentWidth
      have functions := (populated department (by simp)).functions
      intro placed member
      rcases List.mem_cons.mp member with rfl | member
      · have second := start.imp_right fun ⟨_, first⟩ => first department rfl
        simp only [placeDepartment, departmentWidth]
        omega
      · apply ih (fun other inner => populated other (by simp [inner])) _ placed member
        simp only [departmentGapX]
        omega

/-- A header ends to the left of a point that lies behind the row, or at its end when the last
department has a second function. -/
theorem headers_before {bound : Int} (populated : ∀ department ∈ departments, Populated department)
    (finish : departmentX + rowWidth departments - 6 ≤ bound ∨
      departmentX + rowWidth departments - departmentGapX ≤ bound ∧
        ∀ department ∈ departments.getLast?, 2 ≤ department.functions.length) :
    ∀ placed ∈ placeDepartments worldHeight departmentX departments,
      placed.header.x + departmentWidth ≤ bound := by
  induction departments generalizing departmentX with
  | nil => simp [placeDepartments]
  | cons department rest ih =>
      have width := (populated department (by simp)).extentWidth
      have functions := (populated department (by simp)).functions
      have later : ∀ other ∈ rest, Populated other :=
        fun other inner => populated other (by simp [inner])
      rw [rowWidth_cons] at finish
      intro placed member
      rcases List.mem_cons.mp member with rfl | member
      · simp only [placeDepartment, departmentWidth, departmentGapX] at finish ⊢
        cases rest with
        | nil =>
            rw [rowWidth_nil] at finish
            have second := finish.imp_right fun ⟨_, last⟩ => last department rfl
            omega
        | cons next rest =>
            have room := rowWidth_nonneg fun other inner =>
              later other (List.mem_cons_of_mem next inner)
            have nextWidth := (later next (by simp)).extentWidth
            have nextFunctions := (later next (by simp)).functions
            rw [rowWidth_cons, departmentGapX] at finish
            omega
      · apply ih later _ placed member
        cases rest with
        | nil => cases member
        | cons next rest =>
            rcases finish with behind | ⟨atEnd, last⟩
            · exact .inl (by omega)
            · exact .inr ⟨by omega, last⟩

theorem headers_ordered (populated : ∀ department ∈ departments, Populated department)
    (neighbours : departments.IsChain fun left right => 2 ≤ left.functions.length ∨
      2 ≤ right.functions.length) :
    (placeDepartments worldHeight departmentX departments).Pairwise fun left right =>
      left.header.x + departmentWidth ≤ right.header.x := by
  induction departments generalizing departmentX with
  | nil => simp [placeDepartments]
  | cons department rest ih =>
      have width := (populated department (by simp)).extentWidth
      have functions := (populated department (by simp)).functions
      have later : ∀ other ∈ rest, Populated other :=
        fun other inner => populated other (by simp [inner])
      rw [placeDepartments, List.pairwise_cons]
      refine ⟨headers_after later ?_, ih later neighbours.of_cons⟩
      simp only [placeDepartment, departmentWidth, departmentGapX]
      cases rest with
      | nil => exact .inr ⟨by omega, by simp⟩
      | cons next rest =>
          have second := (List.isChain_cons_cons.mp neighbours).1
          rcases second with here | there
          · exact .inl (by omega)
          · exact .inr ⟨by omega, fun first same => by cases same; exact there⟩

theorem neighbours_of_apart (populated : ∀ department ∈ departments, Populated department)
    (apart : ((placeDepartments worldHeight departmentX departments).map (·.header)).Pairwise
      Rect.Apart) :
    departments.IsChain fun left right => 2 ≤ left.functions.length ∨
      2 ≤ right.functions.length := by
  induction departments generalizing departmentX with
  | nil => exact .nil
  | cons department rest ih =>
      have width := (populated department (by simp)).extentWidth
      have functions := (populated department (by simp)).functions
      have later : ∀ other ∈ rest, Populated other :=
        fun other inner => populated other (by simp [inner])
      rw [placeDepartments, List.map_cons, List.pairwise_cons] at apart
      cases rest with
      | nil => exact .singleton department
      | cons next rest =>
          have nextWidth := (later next (by simp)).extentWidth
          have nextFunctions := (later next (by simp)).functions
          refine List.isChain_cons_cons.mpr ⟨?_, ih later apart.2⟩
          have beside := apart.1 _ (List.mem_cons_self)
          simp only [Rect.Apart, placeDepartment, departmentWidth, departmentHeight,
            departmentGapX] at beside
          omega

end Row

theorem functions_mem {worldHeight x : Int} {placed : FunctionLayout}
    (member : placed ∈ (placeDepartment worldHeight x department).functions) :
    ∃ index, ∃ agentFunction ∈ department.functions, index < department.functions.length ∧
      placed = placeFunction department.id x index agentFunction := by
  obtain ⟨index, bound, same⟩ := List.mem_mapIdx.mp member
  exact ⟨index, department.functions[index], List.getElem_mem bound, bound, same.symm⟩

theorem functions_ordered (worldHeight x : Int) (department : AgentDepartment) :
    (placeDepartment worldHeight x department).functions.Pairwise fun left right =>
      left.x + functionWidth + functionGapX ≤ right.x := by
  apply List.pairwise_iff_getElem.mpr
  intro first second firstBound secondBound before
  simp only [placeDepartment, placeFunction, List.getElem_mapIdx, functionWidth, functionGapX]
  omega

/-- What a function contributes stays in its column and does not overlap there. -/
structure InColumn (boxes : FunctionLayout → List Rect) : Prop where
  across : ∀ departmentId x index agentFunction,
    ∀ box ∈ boxes (placeFunction departmentId x index agentFunction),
    (placeFunction departmentId x index agentFunction).x ≤ box.x ∧
      box.x + box.width ≤ (placeFunction departmentId x index agentFunction).x + functionWidth
  down : ∀ departmentId x index agentFunction, 0 < agentFunction.instances.length →
    ∀ box ∈ boxes (placeFunction departmentId x index agentFunction),
      0 ≤ box.y ∧ box.y + box.height ≤ cardGroupTop + groupHeight agentFunction.instances.length
  apart : ∀ departmentId x index agentFunction,
    (boxes (placeFunction departmentId x index agentFunction)).Pairwise Rect.Apart

theorem headers_inColumn : InColumn fun placed => [placed.header] where
  across departmentId x index agentFunction box member := by
    cases List.mem_singleton.mp member
    simp only [placeFunction]
    omega
  down departmentId x index agentFunction populated box member := by
    cases List.mem_singleton.mp member
    rw [groupHeight_populated populated]
    simp only [placeFunction, functionTop, functionHeaderHeight, cardGroupTop]
    omega
  apart departmentId x index agentFunction := List.pairwise_singleton _ _

theorem groups_inColumn : InColumn fun placed => [placed.toRect] where
  across departmentId x index agentFunction box member := by
    cases List.mem_singleton.mp member
    simp only [placeFunction]
    omega
  down departmentId x index agentFunction populated box member := by
    cases List.mem_singleton.mp member
    simp only [placeFunction, cardGroupTop]
    omega
  apart departmentId x index agentFunction := List.pairwise_singleton _ _

theorem cards_mem {x : Int} {index : Nat} {card : InstanceLayout}
    (member : card ∈ (placeFunction departmentId x index agentFunction).instances) :
    ∃ position < agentFunction.instances.length,
      card.x = (placeFunction departmentId x index agentFunction).x + cardInsetX ∧
        card.y = cardTop + position * (cardHeight + cardGapY) ∧ card.width = cardWidth ∧
          card.height = cardHeight := by
  obtain ⟨position, bound, rfl⟩ := List.mem_mapIdx.mp member
  exact ⟨position, bound, rfl, rfl, rfl, rfl⟩

theorem cards_inside {x : Int} {index : Nat} {card : InstanceLayout}
    (member : card ∈ (placeFunction departmentId x index agentFunction).instances) :
    card.toRect.Inside (placeFunction departmentId x index agentFunction).toRect := by
  obtain ⟨position, bound, left, top, width, height⟩ := cards_mem member
  have populated : 0 < agentFunction.instances.length := by omega
  have tall := groupHeight_populated populated
  simp only [Rect.Inside, left, top, width, height, cardInsetX, cardTop, cardHeight,
    cardGapY, cardWidth]
  simp only [placeFunction, tall, functionWidth, functionGapX, cardGroupTop]
  omega

theorem cards_inColumn : InColumn fun placed => placed.instances.map (·.toRect) where
  across departmentId x index agentFunction box member := by
    obtain ⟨card, inner, rfl⟩ := List.mem_map.mp member
    obtain ⟨left, _, right, _⟩ := cards_inside inner
    exact ⟨left, right⟩
  down departmentId x index agentFunction populated box member := by
    obtain ⟨card, inner, rfl⟩ := List.mem_map.mp member
    obtain ⟨_, top, _, bottom⟩ := cards_inside inner
    simp only [placeFunction, cardGroupTop] at top bottom ⊢
    omega
  apart departmentId x index agentFunction := by
    apply List.pairwise_iff_getElem.mpr
    intro first second firstBound secondBound before
    refine .inr (.inr (.inl ?_))
    simp only [placeFunction, placeInstance, List.getElem_map, List.getElem_mapIdx, cardTop,
      cardHeight, cardGapY]
    omega

section Columns

variable {worldHeight departmentX : Int} {departments : List AgentDepartment}
  {boxes : FunctionLayout → List Rect}

theorem column_within (column : InColumn boxes) {x : Int}
    (populated : Populated department) {box : Rect}
    (member : box ∈ (placeDepartment worldHeight x department).functions.flatMap boxes) :
    x ≤ box.x ∧ box.x + box.width ≤ x + department.extentWidth := by
  obtain ⟨placed, inner, member⟩ := List.mem_flatMap.mp member
  obtain ⟨index, agentFunction, _, bound, rfl⟩ := functions_mem inner
  have width := populated.extentWidth
  have across := column.across department.id x index agentFunction box member
  simp only [placeFunction, functionWidth, functionGapX] at across
  omega

theorem columns_apart (column : InColumn boxes)
    (populated : ∀ department ∈ departments, Populated department) :
    ((placeDepartments worldHeight departmentX departments).flatMap
      (·.functions.flatMap boxes)).Pairwise Rect.Apart := by
  apply List.pairwise_flatMap.mpr
  constructor
  · intro placed member
    obtain ⟨department, _, x, rfl, _, _⟩ := placeDepartments_mem member populated
    apply List.pairwise_flatMap.mpr
    constructor
    · intro agentFunction inner
      obtain ⟨index, agentFunction, _, _, rfl⟩ := functions_mem inner
      exact column.apart department.id x index agentFunction
    · apply (functions_ordered worldHeight x department).imp_of_mem
      intro left right leftMember rightMember before first firstMember second secondMember
      obtain ⟨_, leftFunction, _, _, rfl⟩ := functions_mem leftMember
      obtain ⟨_, rightFunction, _, _, rfl⟩ := functions_mem rightMember
      have firstAcross := column.across _ _ _ _ first firstMember
      have secondAcross := column.across _ _ _ _ second secondMember
      simp only [functionGapX] at before
      exact .inl (by omega)
  · apply (placeDepartments_apart populated).imp_of_mem
    intro left right leftMember rightMember before first firstMember second secondMember
    obtain ⟨leftDepartment, leftInner, leftX, rfl, _, _⟩ :=
      placeDepartments_mem leftMember populated
    obtain ⟨rightDepartment, rightInner, rightX, rfl, _, _⟩ :=
      placeDepartments_mem rightMember populated
    have firstAcross := column_within column (populated _ leftInner) firstMember
    have secondAcross := column_within column (populated _ rightInner) secondMember
    simp only [placeDepartment, departmentGapX] at before
    exact .inl (by omega)

end Columns

theorem first_mem {centers : List Int} (nonempty : centers ≠ []) (fallback : Int) :
    centers.head?.getD fallback ∈ centers := by
  cases centers with
  | nil => contradiction
  | cons center rest => exact List.mem_cons_self

theorem last_mem {centers : List Int} (nonempty : centers ≠ []) (fallback : Int) :
    centers.getLast?.getD fallback ∈ centers := by
  rw [List.getLast?_eq_some_getLast nonempty]
  exact List.getLast_mem nonempty

theorem between_ends {centers : List Int} (sorted : centers.Pairwise (· ≤ ·)) {center : Int}
    (member : center ∈ centers) (first last : Int) :
    centers.head?.getD first ≤ center ∧ center ≤ centers.getLast?.getD last := by
  induction centers generalizing center with
  | nil => cases member
  | cons head rest ih =>
      obtain ⟨least, later⟩ := List.pairwise_cons.mp sorted
      have lower : head ≤ center := by
        rcases List.mem_cons.mp member with rfl | member
        · exact Int.le_refl center
        · exact least center member
      refine ⟨lower, ?_⟩
      cases rest with
      | nil => exact Int.le_of_eq (List.mem_singleton.mp member)
      | cons next rest =>
          rw [List.getLast?_cons_cons]
          rcases List.mem_cons.mp member with rfl | member
          · exact Int.le_trans (least next (by simp)) (ih later (by simp)).2
          · exact (ih later member).2

theorem departmentCenters_sorted {worldHeight departmentX : Int}
    {departments : List AgentDepartment}
    (populated : ∀ department ∈ departments, Populated department) :
    ((placeDepartments worldHeight departmentX departments).map (·.center)).Pairwise (· ≤ ·) := by
  apply List.pairwise_map.mpr
  apply (placeDepartments_apart populated).imp_of_mem
  intro left right leftMember rightMember before
  obtain ⟨leftDepartment, leftInner, _, rfl, _, _⟩ := placeDepartments_mem leftMember populated
  obtain ⟨rightDepartment, rightInner, _, rfl, _, _⟩ := placeDepartments_mem rightMember populated
  have leftWidth := (populated _ leftInner).extentWidth
  have leftFunctions := (populated _ leftInner).functions
  have rightWidth := (populated _ rightInner).extentWidth
  have rightFunctions := (populated _ rightInner).functions
  simp only [placeDepartment, DepartmentLayout.center, departmentGapX] at before ⊢
  omega

theorem functionCenters_sorted (worldHeight x : Int) (department : AgentDepartment) :
    ((placeDepartment worldHeight x department).functions.map (·.center)).Pairwise (· ≤ ·) := by
  apply List.pairwise_map.mpr
  apply (functions_ordered worldHeight x department).imp
  intro left right before
  simp only [FunctionLayout.center, functionWidth, functionGapX] at before ⊢
  omega

theorem departmentCenter_between {worldHeight x : Int} (populated : Populated department)
    (first last : Int) :
    (((placeDepartment worldHeight x department).functions.map (·.center)).head?.getD first ≤
        (placeDepartment worldHeight x department).center) ∧
      (placeDepartment worldHeight x department).center ≤
        ((placeDepartment worldHeight x department).functions.map (·.center)).getLast?.getD
          last := by
  have width := populated.extentWidth
  have functions := populated.functions
  have firstColumn : ((placeDepartment worldHeight x department).functions.map (·.center)).head? =
      some (x + 56) := by
    rw [List.head?_eq_getElem?, List.getElem?_map]
    simp [placeDepartment, placeFunction, FunctionLayout.center, List.getElem?_eq_getElem functions]
  have lastColumn : ((placeDepartment worldHeight x department).functions.map (·.center)).getLast? =
      some (x + (department.functions.length - 1 : Nat) * 120 + 56) := by
    have final : department.functions.length - 1 < department.functions.length := by omega
    rw [List.getLast?_eq_getElem?, List.getElem?_map]
    simp [placeDepartment, placeFunction, FunctionLayout.center, List.getElem?_eq_getElem final]
  rw [firstColumn, lastColumn]
  simp only [Option.getD_some, DepartmentLayout.center, placeDepartment, width]
  omega

theorem worldWidth_centred {hierarchy : List AgentDepartment} (present : hierarchy ≠ [])
    (populated : ∀ department ∈ hierarchy, Populated department) :
    contentWidth hierarchy + departmentGapX = rowWidth hierarchy ∧
      2 * ((worldWidth hierarchy - contentWidth hierarchy) / 2) + contentWidth hierarchy =
        worldWidth hierarchy ∧
        0 ≤ (worldWidth hierarchy - contentWidth hierarchy) / 2 ∧
          2 * (worldWidth hierarchy / 2) = worldWidth hierarchy := by
  cases hierarchy with
  | nil => contradiction
  | cons department rest =>
      have width := (populated department (by simp)).extentWidth
      have room := rowWidth_nonneg fun other inner =>
        populated other (List.mem_cons_of_mem department inner)
      rw [worldWidth, contentWidth_cons, rowWidth_cons]
      simp only [departmentGapX, rootWidth]
      omega

theorem root_between {hierarchy : List AgentDepartment} (present : hierarchy ≠ [])
    (populated : ∀ department ∈ hierarchy, Populated department) (first last : Int) :
    ((departmentRow hierarchy).map (·.center)).head?.getD first ≤ worldWidth hierarchy / 2 ∧
      worldWidth hierarchy / 2 ≤ ((departmentRow hierarchy).map (·.center)).getLast?.getD last := by
  obtain ⟨content, centred, _, _⟩ := worldWidth_centred present populated
  have nonempty : departmentRow hierarchy ≠ [] := by
    cases hierarchy with
    | nil => contradiction
    | cons department rest => exact List.cons_ne_nil _ _
  constructor
  · cases hierarchy with
    | nil => contradiction
    | cons department rest =>
        have width := (populated department (by simp)).extentWidth
        have functions := (populated department (by simp)).functions
        have room := rowWidth_nonneg fun other inner =>
          populated other (List.mem_cons_of_mem department inner)
        have start : ((departmentRow (department :: rest)).map (·.center)).head? =
            some ((worldWidth (department :: rest) - contentWidth (department :: rest)) / 2 +
              department.extentWidth / 2) := rfl
        rw [start, Option.getD_some]
        rw [rowWidth_cons] at content
        omega
  · have final := List.getLast?_eq_some_getLast nonempty
    obtain ⟨department, inner, x, same, finish⟩ := placeDepartments_last final
    obtain ⟨_, _, left, again, after, _⟩ :=
      placeDepartments_mem (List.getLast_mem nonempty) populated
    have beside : x = left :=
      congrArg (fun placed : DepartmentLayout => placed.x) (same.symm.trans again)
    have width := (populated department (List.mem_of_getLast? inner)).extentWidth
    have functions := (populated department (List.mem_of_getLast? inner)).functions
    rw [List.getLast?_map, final, Option.map_some, Option.getD_some, same]
    simp only [DepartmentLayout.center, placeDepartment]
    omega

section Joined

variable {hierarchy : List AgentDepartment} {layout : HierarchyLayout}

theorem layoutHierarchy_some (drawn : layoutHierarchy hierarchy = some layout) :
    hierarchy ≠ [] ∧ layout.departments = departmentRow hierarchy ∧
      layout.lines = connectors (worldWidth hierarchy) (departmentRow hierarchy) ∧
      layout.root = ⟨worldWidth hierarchy / 2 - rootWidth / 2, rootTop, rootWidth, rootHeight⟩ ∧
      layout.bounds = ⟨0, 0, worldWidth hierarchy, worldHeight hierarchy⟩ := by
  cases hierarchy with
  | nil => cases drawn
  | cons department rest =>
      cases drawn
      exact ⟨List.cons_ne_nil department rest, rfl, rfl, rfl, rfl⟩

theorem connectors_mem {width : Int} {line : LayoutLine} :
    line ∈ connectors width departments ↔
      line = ⟨"root-trunk", width / 2, rootHeight, width / 2, rootBusY⟩ ∨
        line = ⟨"root-bus", (departments.map (·.center)).head?.getD 0, rootBusY,
          (departments.map (·.center)).getLast?.getD width, rootBusY⟩ ∨
        ∃ index, ∃ bound : index < departments.length,
          line ∈ departmentLines index departments[index] := by
  simp only [connectors, List.mem_append, List.mem_cons, List.not_mem_nil, or_false, or_assoc,
    List.mem_flatten, List.mem_mapIdx]
  constructor
  · rintro (trunk | bus | ⟨_, ⟨index, bound, rfl⟩, member⟩)
    · exact .inl trunk
    · exact .inr (.inl bus)
    · exact .inr (.inr ⟨index, bound, member⟩)
  · rintro (trunk | bus | ⟨index, bound, member⟩)
    · exact .inl trunk
    · exact .inr (.inl bus)
    · exact .inr (.inr ⟨_, ⟨index, bound, rfl⟩, member⟩)

theorem departmentLines_mem {departmentIndex : Nat} {line : LayoutLine} :
    line ∈ departmentLines departmentIndex department ↔
      line = ⟨"department-" ++ toString departmentIndex ++ "-drop", department.center, rootBusY,
        department.center,
          departmentTop⟩ ∨
        line = ⟨"department-" ++ toString departmentIndex ++ "-trunk", department.center,
          departmentTop + departmentHeight, department.center, departmentBusY⟩ ∨
        line = ⟨"department-" ++ toString departmentIndex ++ "-bus",
          (department.functions.map (·.center)).head?.getD department.center, departmentBusY,
          (department.functions.map (·.center)).getLast?.getD department.center, departmentBusY⟩ ∨
        ∃ index, ∃ bound : index < department.functions.length,
          line ∈ functionLines departmentIndex index department.functions[index] := by
  simp only [departmentLines, List.mem_append, List.mem_cons, List.not_mem_nil, or_false, or_assoc,
    List.mem_flatten, List.mem_mapIdx]
  constructor
  · rintro (drop | trunk | bus | ⟨_, ⟨index, bound, rfl⟩, member⟩)
    · exact .inl drop
    · exact .inr (.inl trunk)
    · exact .inr (.inr (.inl bus))
    · exact .inr (.inr (.inr ⟨index, bound, member⟩))
  · rintro (drop | trunk | bus | ⟨index, bound, member⟩)
    · exact .inl drop
    · exact .inr (.inl trunk)
    · exact .inr (.inr (.inl bus))
    · exact .inr (.inr (.inr ⟨_, ⟨index, bound, rfl⟩, member⟩))

theorem rootBus_onBus (drawn : layoutHierarchy hierarchy = some layout) {center : Int}
    (between : ∀ first last, ((departmentRow hierarchy).map (·.center)).head?.getD first ≤ center ∧
      center ≤ ((departmentRow hierarchy).map (·.center)).getLast?.getD last) :
    ∃ bus ∈ layout.lines, bus.OnBus ⟨center, rootBusY⟩ := by
  obtain ⟨_, _, lines, _⟩ := layoutHierarchy_some drawn
  have bounds := between 0 (worldWidth hierarchy)
  rw [lines]
  exact ⟨_, connectors_mem.mpr (.inr (.inl rfl)), ⟨rfl, Int.le_trans bounds.1 bounds.2⟩, rfl,
    bounds.1, bounds.2⟩

theorem departmentRow_mem (populated : ∀ department ∈ hierarchy, Populated department)
    {placed : DepartmentLayout} (member : placed ∈ departmentRow hierarchy) :
    ∃ department ∈ hierarchy, ∃ x, placed = placeDepartment
      (worldHeight hierarchy) x department := by
  obtain ⟨department, inner, x, same, _⟩ := placeDepartments_mem member populated
  exact ⟨department, inner, x, same⟩

theorem departmentCenter_onBus (drawn : layoutHierarchy hierarchy = some layout)
    (populated : ∀ department ∈ hierarchy, Populated department) {placed : DepartmentLayout}
    (member : placed ∈ departmentRow hierarchy) :
      ∃ bus ∈ layout.lines, bus.OnBus ⟨placed.center, rootBusY⟩ :=
  rootBus_onBus drawn fun first last =>
    between_ends (departmentCenters_sorted populated) (List.mem_map_of_mem member) first last

theorem header_onEdge (drawn : layoutHierarchy hierarchy = some layout)
    (populated : ∀ department ∈ hierarchy, Populated department) {placed : DepartmentLayout}
    (member : placed ∈ departmentRow hierarchy) {y : Int}
    (edge : y = departmentTop ∨ y = departmentTop + departmentHeight) :
    ∃ box ∈ layout.boxes, box.OnEdge ⟨placed.center, y⟩ := by
  obtain ⟨_, departments, _⟩ := layoutHierarchy_some drawn
  have header : placed.header ∈ layout.departmentHeaders := by
    rw [HierarchyLayout.departmentHeaders, departments]
    exact List.mem_map_of_mem member
  obtain ⟨department, _, x, rfl⟩ := departmentRow_mem populated member
  refine ⟨_, List.mem_cons_of_mem _
    (List.mem_append_left _ (List.mem_append_left _ (List.mem_append_left _ header))), edge, ?_⟩
  simp only [placeDepartment, DepartmentLayout.center, departmentWidth]
  omega

theorem functionBox_mem (drawn : layoutHierarchy hierarchy = some layout)
    {placed : DepartmentLayout}
    (member : placed ∈ departmentRow hierarchy) {column : FunctionLayout}
    (inner : column ∈ placed.functions) :
    column.header ∈ layout.boxes ∧ column.toRect ∈ layout.boxes := by
  obtain ⟨_, departments, _⟩ := layoutHierarchy_some drawn
  have header : column.header ∈ layout.functionHeaders := by
    rw [HierarchyLayout.functionHeaders, HierarchyLayout.functionBoxes, departments]
    exact List.mem_flatMap.mpr ⟨placed, member, List.mem_flatMap.mpr ⟨column, inner, by simp⟩⟩
  have group : column.toRect ∈ layout.functionGroups := by
    rw [HierarchyLayout.functionGroups, HierarchyLayout.functionBoxes, departments]
    exact List.mem_flatMap.mpr ⟨placed, member, List.mem_flatMap.mpr ⟨column, inner, by simp⟩⟩
  simp only [HierarchyLayout.boxes, List.mem_cons, List.mem_append]
  exact ⟨.inr (.inl (.inl (.inr header))), .inr (.inl (.inr group))⟩

theorem root_joined (drawn : layoutHierarchy hierarchy = some layout)
    (populated : ∀ department ∈ hierarchy, Populated department) :
    layout.Joined ⟨"root-trunk", worldWidth hierarchy / 2, rootHeight, worldWidth hierarchy / 2,
      rootBusY⟩ := by
  obtain ⟨present, _, _, root, _⟩ := layoutHierarchy_some drawn
  refine .inl ⟨⟨rfl, by simp⟩, fun point member => ?_⟩
  rcases List.mem_pair.mp member with rfl | rfl
  · refine .inl ⟨layout.root, List.mem_cons_self, ?_⟩
    simp only [root, Rect.OnEdge, rootTop, rootHeight, rootWidth]
    omega
  · exact .inr (rootBus_onBus drawn (root_between present populated))

theorem rootBus_joined (drawn : layoutHierarchy hierarchy = some layout)
    (populated : ∀ department ∈ hierarchy, Populated department) :
    layout.Joined ⟨"root-bus", ((departmentRow hierarchy).map (·.center)).head?.getD 0, rootBusY,
      ((departmentRow hierarchy).map (·.center)).getLast?.getD (worldWidth hierarchy),
        rootBusY⟩ := by
  obtain ⟨present, _, lines, _⟩ := layoutHierarchy_some drawn
  have nonempty : (departmentRow hierarchy).map (·.center) ≠ [] := by
    cases hierarchy with
    | nil => contradiction
    | cons department rest => exact List.cons_ne_nil _ _
  have dropped : ∀ center ∈ (departmentRow hierarchy).map (·.center),
      ∃ drop ∈ layout.lines, drop.OnDrop ⟨center, rootBusY⟩ := by
    intro center member
    obtain ⟨placed, inner, rfl⟩ := List.mem_map.mp member
    obtain ⟨index, bound, rfl⟩ := List.getElem_of_mem inner
    rw [lines]
    refine ⟨_, connectors_mem.mpr (.inr (.inr ⟨index, bound, departmentLines_mem.mpr (.inl rfl)⟩)),
      ⟨rfl, ?_⟩, rfl, ?_⟩
    · simp
    · simp
  have centred := root_between present populated 0 (worldWidth hierarchy)
  refine .inr ⟨⟨rfl, Int.le_trans centred.1 centred.2⟩, fun point member => ?_⟩
  rcases List.mem_pair.mp member with rfl | rfl
  · exact dropped _ (first_mem nonempty 0)
  · exact dropped _ (last_mem nonempty (worldWidth hierarchy))

/-- The connectors of one department, with what they may end on. -/
structure DrawnDepartment (layout : HierarchyLayout) (index : Nat)
    (placed : DepartmentLayout) : Prop where
  drawn : ∀ line ∈ departmentLines index placed, line ∈ layout.lines
  centred : ∀ first last, (placed.functions.map (·.center)).head?.getD first ≤ placed.center ∧
    placed.center ≤ (placed.functions.map (·.center)).getLast?.getD last
  sorted : (placed.functions.map (·.center)).Pairwise (· ≤ ·)
  nonempty : placed.functions.map (·.center) ≠ []
  columns : ∀ column ∈ placed.functions,
    (column.header ∈ layout.boxes ∧ column.toRect ∈ layout.boxes) ∧
    ∃ departmentId x functionIndex agentFunction,
      column = placeFunction departmentId x functionIndex agentFunction

namespace DrawnDepartment

variable {index : Nat} {placed : DepartmentLayout}

theorem of_row (drawn : layoutHierarchy hierarchy = some layout)
    (populated : ∀ department ∈ hierarchy, Populated department)
    (bound : index < (departmentRow hierarchy).length) :
    DrawnDepartment layout index (departmentRow hierarchy)[index] := by
  obtain ⟨_, _, lines, _⟩ := layoutHierarchy_some drawn
  have member := List.getElem_mem bound
  obtain ⟨department, inner, x, same⟩ := departmentRow_mem populated member
  constructor
  · intro line drawnLine
    rw [lines]
    exact connectors_mem.mpr (.inr (.inr ⟨index, bound, drawnLine⟩))
  · rw [same]
    exact departmentCenter_between (populated department inner)
  · rw [same]
    exact functionCenters_sorted (worldHeight hierarchy) x department
  · intro empty
    have none := congrArg List.length empty
    have functions := (populated department inner).functions
    simp only [same, placeDepartment, List.length_map, List.length_mapIdx, List.length_nil] at none
    omega
  · intro column columnMember
    refine ⟨functionBox_mem drawn member columnMember, ?_⟩
    rw [same] at columnMember
    obtain ⟨functionIndex, agentFunction, _, _, same⟩ := functions_mem columnMember
    exact ⟨department.id, x, functionIndex, agentFunction, same⟩

theorem onBus (department : DrawnDepartment layout index placed) {center : Int}
    (between : ∀ first last, (placed.functions.map (·.center)).head?.getD first ≤ center ∧
      center ≤ (placed.functions.map (·.center)).getLast?.getD last) :
    ∃ bus ∈ layout.lines, bus.OnBus ⟨center, departmentBusY⟩ := by
  have bounds := between placed.center placed.center
  exact ⟨_, department.drawn _ (departmentLines_mem.mpr (.inr (.inr (.inl rfl)))),
    ⟨rfl, Int.le_trans bounds.1 bounds.2⟩, rfl, bounds.1, bounds.2⟩

theorem bus_joined (department : DrawnDepartment layout index placed) (name : String) :
    layout.Joined ⟨name, (placed.functions.map (·.center)).head?.getD placed.center, departmentBusY,
      (placed.functions.map (·.center)).getLast?.getD placed.center, departmentBusY⟩ := by
  have dropped : ∀ center ∈ placed.functions.map (·.center),
      ∃ drop ∈ layout.lines, drop.OnDrop ⟨center, departmentBusY⟩ := by
    intro center member
    obtain ⟨column, columnMember, rfl⟩ := List.mem_map.mp member
    obtain ⟨functionIndex, bound, rfl⟩ := List.getElem_of_mem columnMember
    refine ⟨_, department.drawn _ (departmentLines_mem.mpr (.inr (.inr (.inr ⟨functionIndex, bound,
      List.mem_cons_self⟩)))), ⟨rfl, ?_⟩, rfl, ?_⟩
    · simp
    · simp
  have bounds := department.centred placed.center placed.center
  refine .inr ⟨⟨rfl, Int.le_trans bounds.1 bounds.2⟩, fun point corner => ?_⟩
  rcases List.mem_pair.mp corner with rfl | rfl
  · exact dropped _ (first_mem department.nonempty _)
  · exact dropped _ (last_mem department.nonempty _)

theorem function_joined (department : DrawnDepartment layout index placed) {functionIndex : Nat}
    (bound : functionIndex < placed.functions.length) (line : LayoutLine)
    (member : line ∈ functionLines index functionIndex placed.functions[functionIndex]) :
      layout.Joined line := by
  have columnMember := List.getElem_mem bound
  have onBus := department.onBus (between_ends department.sorted (List.mem_map_of_mem columnMember))
  obtain ⟨⟨header, group⟩, same⟩ := department.columns _ columnMember
  generalize placed.functions[functionIndex] = column at *
  obtain ⟨departmentId, x, _, agentFunction, rfl⟩ := same
  rcases List.mem_pair.mp member with rfl | rfl
  · refine .inl ⟨⟨rfl, by simp⟩, fun point corner => ?_⟩
    rcases List.mem_pair.mp corner with rfl | rfl
    · exact .inr onBus
    · refine .inl ⟨_, header, .inl rfl, ?_⟩
      simp only [placeFunction, FunctionLayout.center, functionWidth]
      omega
  · refine .inl ⟨⟨rfl, by simp⟩, fun point corner => ?_⟩
    rcases List.mem_pair.mp corner with rfl | rfl
    · refine .inl ⟨_, header, .inr rfl, ?_⟩
      simp only [placeFunction, FunctionLayout.center, functionWidth]
      omega
    · refine .inl ⟨_, group, .inl rfl, ?_⟩
      simp only [placeFunction, FunctionLayout.center, functionWidth]
      omega

end DrawnDepartment

theorem connectors_joined (drawn : layoutHierarchy hierarchy = some layout)
    (populated : ∀ department ∈ hierarchy, Populated department) :
      ∀ line ∈ layout.lines, layout.Joined line := by
  obtain ⟨_, _, lines, _⟩ := layoutHierarchy_some drawn
  intro line member
  rw [lines] at member
  rcases connectors_mem.mp member with rfl | rfl | ⟨index, bound, member⟩
  · exact root_joined drawn populated
  · exact rootBus_joined drawn populated
  · have department := DrawnDepartment.of_row drawn populated bound
    have placedMember := List.getElem_mem bound
    rcases departmentLines_mem.mp member with rfl | rfl | rfl |
      ⟨functionIndex, functionBound, function⟩
    · refine .inl ⟨⟨rfl, by simp⟩, fun point corner => ?_⟩
      rcases List.mem_pair.mp corner with rfl | rfl
      · exact .inr (departmentCenter_onBus drawn populated placedMember)
      · exact .inl (header_onEdge drawn populated placedMember (.inl rfl))
    · refine .inl ⟨⟨rfl, by simp⟩, fun point corner => ?_⟩
      rcases List.mem_pair.mp corner with rfl | rfl
      · exact .inl (header_onEdge drawn populated placedMember (.inr rfl))
      · exact .inr (department.onBus department.centred)
    · exact department.bus_joined _
    · exact department.function_joined functionBound line function

end Joined

section Placement

variable {hierarchy : List AgentDepartment} {layout : HierarchyLayout}

theorem groupHeight_mono {small large : Nat} (atMost : small ≤ large) :
    groupHeight small ≤ groupHeight large := by
  simp only [groupHeight, cardHeight, cardGapY]
  omega

theorem functionBoxes_inside (drawn : layoutHierarchy hierarchy = some layout)
    (populated : ∀ department ∈ hierarchy, Populated department)
    {boxes : FunctionLayout → List Rect}
    (column : InColumn boxes) : ∀ box ∈ layout.functionBoxes boxes, box.Inside layout.bounds := by
  obtain ⟨present, departments, _, _, bounds⟩ := layoutHierarchy_some drawn
  obtain ⟨content, centred, start, _⟩ := worldWidth_centred present populated
  intro box member
  rw [HierarchyLayout.functionBoxes, departments] at member
  obtain ⟨placed, placedMember, member⟩ := List.mem_flatMap.mp member
  obtain ⟨department, inner, x, rfl, left, right⟩ := placeDepartments_mem placedMember populated
  have across := column_within column (populated department inner) member
  obtain ⟨_, functionMember, boxMember⟩ := List.mem_flatMap.mp member
  obtain ⟨index, agentFunction, functionInner, _, rfl⟩ := functions_mem functionMember
  have filled := (populated department inner).instances agentFunction functionInner
  have down := column.down department.id x index agentFunction filled box boxMember
  have tallest := groupHeight_mono
    ((tallest_from hierarchy 0).2 department inner agentFunction functionInner)
  have height : worldHeight hierarchy = cardGroupTop +
    groupHeight (tallestInstanceCount hierarchy) := rfl
  rw [bounds]
  simp only [Rect.Inside, height, tallestInstanceCount]
  omega

theorem worldHeight_least (hierarchy : List AgentDepartment) :
    cardGroupTop ≤ worldHeight hierarchy := by
  simp only [worldHeight, groupHeight, cardHeight, cardGapY]
  omega

theorem root_inside (drawn : layoutHierarchy hierarchy = some layout) :
    layout.root.Inside layout.bounds := by
  obtain ⟨_, _, _, root, bounds⟩ := layoutHierarchy_some drawn
  have tall := worldHeight_least hierarchy
  have wide : rootWidth ≤ worldWidth hierarchy := Int.le_max_right _ _
  rw [root, bounds]
  simp only [Rect.Inside, cardGroupTop, rootTop, rootHeight, rootWidth] at tall wide ⊢
  omega

theorem header_inside_iff (drawn : layoutHierarchy hierarchy = some layout) {x : Int} :
    (placeDepartment (worldHeight hierarchy) x department).header.Inside layout.bounds ↔
      0 ≤ (placeDepartment (worldHeight hierarchy) x department).header.x ∧
        (placeDepartment (worldHeight hierarchy) x department).header.x + departmentWidth ≤
          worldWidth hierarchy := by
  obtain ⟨_, _, _, _, bounds⟩ := layoutHierarchy_some drawn
  have tall := worldHeight_least hierarchy
  rw [bounds]
  simp only [Rect.Inside, placeDepartment, departmentTop, departmentHeight, departmentWidth,
    cardGroupTop] at tall ⊢
  omega

theorem headers_inside (drawn : layoutHierarchy hierarchy = some layout)
    (populated : ∀ department ∈ hierarchy, Populated department) (fit : HeadersFit hierarchy) :
    ∀ box ∈ layout.departmentHeaders, box.Inside layout.bounds := by
  obtain ⟨present, departments, _⟩ := layoutHierarchy_some drawn
  obtain ⟨content, centred, start, _⟩ := worldWidth_centred present populated
  have wide : rootWidth ≤ worldWidth hierarchy := Int.le_max_right _ _
  intro box member
  rw [HierarchyLayout.departmentHeaders, departments] at member
  obtain ⟨placed, placedMember, rfl⟩ := List.mem_map.mp member
  suffices room : 0 ≤ placed.header.x ∧ placed.header.x + departmentWidth ≤ worldWidth hierarchy by
    obtain ⟨department, _, x, rfl⟩ := departmentRow_mem populated placedMember
    exact (header_inside_iff drawn).mpr room
  rcases fit with single | ⟨first, last, _⟩
  · obtain ⟨department, rfl⟩ := List.length_eq_one_iff.mp single
    have width := (populated department (by simp)).extentWidth
    have functions := (populated department (by simp)).functions
    cases List.mem_singleton.mp placedMember
    simp only [rootWidth, departmentGapX, rowWidth_cons, rowWidth_nil, placeDepartment,
      departmentWidth]
      at content wide centred start ⊢
    omega
  · constructor
    · exact headers_after populated (.inr ⟨start, first⟩) placed placedMember
    · exact headers_before populated (.inr ⟨by omega, last⟩) placed placedMember

theorem departmentHeaders_apart (drawn : layoutHierarchy hierarchy = some layout)
    (populated : ∀ department ∈ hierarchy, Populated department) (fit : HeadersFit hierarchy) :
    layout.departmentHeaders.Pairwise Rect.Apart := by
  obtain ⟨_, departments, _⟩ := layoutHierarchy_some drawn
  rw [HierarchyLayout.departmentHeaders, departments]
  rcases fit with single | ⟨_, _, neighbours⟩
  · obtain ⟨department, rfl⟩ := List.length_eq_one_iff.mp single
    exact List.pairwise_singleton _ _
  · apply List.pairwise_map.mpr
    apply (headers_ordered populated neighbours).imp_of_mem
    intro left right leftMember _ before
    obtain ⟨department, _, x, rfl⟩ := departmentRow_mem populated leftMember
    exact .inl before

theorem headersFit_of_wellPlaced (drawn : layoutHierarchy hierarchy = some layout)
    (populated : ∀ department ∈ hierarchy, Populated department)
    (inside : ∀ box ∈ layout.departmentHeaders, box.Inside layout.bounds)
    (apart : layout.departmentHeaders.Pairwise Rect.Apart) : HeadersFit hierarchy := by
  obtain ⟨present, departments, _⟩ := layoutHierarchy_some drawn
  rw [HierarchyLayout.departmentHeaders, departments] at inside apart
  cases hierarchy with
  | nil => contradiction
  | cons department rest =>
      cases rest with
      | nil => exact .inl rfl
      | cons next rest =>
          obtain ⟨content, centred, start, _⟩ := worldWidth_centred present populated
          have width := (populated department (by simp)).extentWidth
          have functions := (populated department (by simp)).functions
          have nextWidth := (populated next (by simp)).extentWidth
          have nextFunctions := (populated next (by simp)).functions
          have room := rowWidth_nonneg fun other inner =>
            populated other (List.mem_cons_of_mem department (List.mem_cons_of_mem next inner))
          -- Two departments are wider than the root, so the row starts at the left edge.
          have full : worldWidth (department :: next :: rest) =
              contentWidth (department :: next :: rest) := by
            rw [worldWidth, contentWidth_cons, rowWidth_cons]
            simp only [rootWidth, departmentGapX]
            omega
          refine .inr ⟨fun first same => ?_, fun last same => ?_,
            neighbours_of_apart populated apart⟩
          · cases same
            have header := inside _ (List.mem_map_of_mem List.mem_cons_self)
            have left := ((header_inside_iff drawn).mp header).1
            simp only [placeDepartment, departmentWidth] at left
            omega
          · have nonempty : departmentRow (department :: next :: rest) ≠ [] := List.cons_ne_nil _ _
            have final := List.getLast?_eq_some_getLast nonempty
            obtain ⟨_, again, x, placed, finish⟩ := placeDepartments_last final
            cases Option.mem_unique same again
            have header := inside _ (List.mem_map_of_mem (List.getLast_mem nonempty))
            rw [placed] at header
            have right := ((header_inside_iff drawn).mp header).2
            have lastWidth := (populated last (List.mem_of_getLast? same)).extentWidth
            have lastFunctions := (populated last (List.mem_of_getLast? same)).functions
            simp only [placeDepartment, departmentWidth] at right
            omega

end Placement

/-- The layout keeps its boxes inside the bounds and apart exactly when no department header meets
an edge or another header; everything else always has its place. -/
theorem layoutHierarchy_disjoint {hierarchy : List AgentDepartment} (present : hierarchy ≠ [])
    (populated : ∀ department ∈ hierarchy, Populated department) :
    (∃ layout, layoutHierarchy hierarchy = some layout ∧ layout.WellPlaced) ↔
      HeadersFit hierarchy := by
  constructor
  · rintro ⟨layout, drawn, placed⟩
    apply headersFit_of_wellPlaced drawn populated _ placed.departmentHeaders_apart
    intro box member
    apply placed.inside box
    simp only [HierarchyLayout.boxes, List.mem_cons, List.mem_append]
    exact .inr (.inl (.inl (.inl member)))
  · intro fit
    obtain ⟨layout, drawn⟩ : ∃ layout, layoutHierarchy hierarchy = some layout := by
      cases hierarchy with
      | nil => contradiction
      | cons department rest => exact ⟨_, rfl⟩
    obtain ⟨_, departments, _⟩ := layoutHierarchy_some drawn
    refine ⟨layout, drawn, ?_, departmentHeaders_apart drawn populated fit, ?_, ?_, ?_, ?_,
      connectors_joined drawn populated⟩
    · intro box member
      simp only [HierarchyLayout.boxes, List.mem_cons, List.mem_append] at member
      rcases member with rfl | ((member | member) | member) | member
      · exact root_inside drawn
      · exact headers_inside drawn populated fit box member
      · exact functionBoxes_inside drawn populated headers_inColumn box member
      · exact functionBoxes_inside drawn populated groups_inColumn box member
      · exact functionBoxes_inside drawn populated cards_inColumn box member
    · rw [HierarchyLayout.functionHeaders, HierarchyLayout.functionBoxes, departments]
      exact columns_apart headers_inColumn populated
    · rw [HierarchyLayout.functionGroups, HierarchyLayout.functionBoxes, departments]
      exact columns_apart groups_inColumn populated
    · rw [HierarchyLayout.cards, HierarchyLayout.functionBoxes, departments]
      exact columns_apart cards_inColumn populated
    · rw [departments]
      intro placed member column inner card cardMember
      obtain ⟨department, _, x, rfl⟩ := departmentRow_mem populated member
      obtain ⟨index, agentFunction, _, _, rfl⟩ := functions_mem inner
      exact cards_inside cardMember

namespace SmallHierarchy

def post : AgentInstance := ⟨"instance", "template", []⟩

def wide (id : String) : AgentDepartment := ⟨id, [⟨"first", [post]⟩, ⟨"second", [post, post]⟩]⟩

def narrow (id : String) : AgentDepartment := ⟨id, [⟨"only", [post]⟩]⟩

theorem wide_populated : ∀ department ∈ [wide "email", wide "social"], Populated department := by
  intro department member
  rcases List.mem_pair.mp member with rfl | rfl <;> exact ⟨by decide, by decide⟩

theorem narrow_populated : ∀ department ∈ [narrow "email", narrow "social"],
    Populated department := by
  intro department member
  rcases List.mem_pair.mp member with rfl | rfl <;> exact ⟨by decide, by decide⟩

theorem layoutHierarchy_disjoint_wide :
    ∃ layout, layoutHierarchy [wide "email", wide "social"] = some layout ∧ layout.WellPlaced := by
  apply (layoutHierarchy_disjoint (by simp) wide_populated).mpr
  refine .inr ⟨?_, ?_, ?_⟩
  · intro department first
    cases first
    decide
  · intro department last
    cases last
    decide
  · exact List.isChain_cons_cons.mpr ⟨.inl (by decide), .singleton _⟩

/-- The first header starts left of the bounds, and the headers of the two departments overlap. -/
theorem narrow_misplaced : [narrow "email", narrow "social"] ≠ [] ∧
    (∀ department ∈ [narrow "email", narrow "social"], Populated department) ∧
      ∃ layout, layoutHierarchy [narrow "email", narrow "social"] = some layout ∧
        layout.departmentHeaders = [⟨-14, 92, 140, 34⟩, ⟨118, 92, 140, 34⟩] ∧
        layout.bounds = ⟨0, 0, 244, 314⟩ ∧
        ¬ layout.WellPlaced := by
  have headers : (layoutHierarchy [narrow "email", narrow "social"]).map (·.departmentHeaders) =
      some [⟨-14, 92, 140, 34⟩, ⟨118, 92, 140, 34⟩] := by decide
  have bounds : (layoutHierarchy [narrow "email", narrow "social"]).map (·.bounds) =
    some ⟨0, 0, 244, 314⟩ := by decide
  obtain ⟨layout, drawn⟩ : ∃ layout, layoutHierarchy [narrow "email", narrow "social"] =
    some layout := ⟨_, rfl⟩
  rw [drawn] at headers bounds
  have listed : layout.departmentHeaders = _ := Option.some.inj headers
  refine ⟨by simp, narrow_populated, layout, drawn, listed, Option.some.inj bounds,
    fun placed => ?_⟩
  have apart := placed.departmentHeaders_apart
  rw [listed] at apart
  have overlapping := List.rel_of_pairwise_cons apart List.mem_cons_self
  simp only [Rect.Apart] at overlapping
  omega

end SmallHierarchy

end MarketingAgents
