import CyclicCalls.Solution.Project
import Mathlib.Data.List.Basic
/-!
# Refused requests

To find the projects of a solution, the system is asked to look at paths and to list a directory.
It may refuse any of these requests, and then opening the solution stops with its error. Which
requests are made can be said of the tree of files alone, as a list in the order of asking
(`requests`): a look at the solution, at the markers of its directory up to the first that is there,
and so on. What the system refuses decides only how far down the list opening gets.

Every function that asks has one equation: it gives the value that the tree has for it, after its
requests (`Disk.after`). The requests of a whole are those of its parts, one after the other
(`Disk.after_bind`).

Main statement: `openAt_refused_iff`.
-/

set_option autoImplicit false

namespace CyclicCalls

namespace Disk

variable {α β : Type} (disk : Disk)

/-! ## Values after requests -/

/-- The error of the first request that is refused. -/
def firstRefused? (requests : List (Request × Path)) : Option SystemError :=
  requests.findSome? (fun asked => (disk.refusal? asked.1 asked.2).map (SystemError.mk asked.2))

/-- A value that is found after some requests, unless one of them is refused. -/
def after (requests : List (Request × Path)) (value : α) : Except SystemError α :=
  match disk.firstRefused? requests with
  | some error => .error error
  | none => .ok value

variable {disk}

theorem firstRefused?_append (requests more : List (Request × Path)) :
    disk.firstRefused? (requests ++ more) =
      (disk.firstRefused? requests).or (disk.firstRefused? more) :=
  List.findSome?_append

/-- What is found on the way to a value, and what is found from there. -/
theorem after_bind {requests more : List (Request × Path)} {value : α} {result : β}
    {next : α → Except SystemError β} (onward : next value = disk.after more result) :
    (disk.after requests value >>= next) = disk.after (requests ++ more) result := by
  unfold after
  rw [firstRefused?_append]
  cases disk.firstRefused? requests with
  | none => exact onward
  | some error => rfl

/-- Nothing more is asked after the value is found. -/
theorem after_bind_ok {requests : List (Request × Path)} {value : α} {result : β}
    {next : α → Except SystemError β} (onward : next value = .ok result) :
    (disk.after requests value >>= next) = disk.after requests result := by
  have last : next value = disk.after [] result := onward
  rw [after_bind last, List.append_nil]

theorem ask_eq (request : Request) (path : Path) :
    disk.ask request path = disk.after [(request, path)] () := by
  unfold ask after firstRefused?
  rw [List.findSome?_singleton]
  cases disk.refusal? request path with
  | none => rfl
  | some refusal => rfl

theorem look_eq (path : Path) :
    disk.look path = disk.after [(.look, path)] (disk.files.locate? path) := by
  rw [look, ask_eq]
  exact after_bind_ok rfl

theorem hasFile_eq (path : Path) :
    disk.hasFile path = disk.after [(.look, path)] (disk.files.hasFile path) := by
  rw [hasFile, look_eq]
  exact after_bind_ok rfl

theorem hasDirectory_eq (path : Path) :
    disk.hasDirectory path = disk.after [(.look, path)] (disk.files.hasDirectory path) := by
  rw [hasDirectory, look_eq]
  exact after_bind_ok rfl

/-! ## Requests for the elements of a list -/

/-- The requests for elements up to the first that is accepted. -/
def askedUntil (accepts : α → Bool) (asked : α → List (Request × Path)) :
    List α → List (Request × Path)
  | [] => []
  | element :: elements =>
    asked element ++ if accepts element then [] else askedUntil accepts asked elements

variable {accepts : α → Bool} {asked : α → List (Request × Path)}
  {test : α → Except SystemError Bool}

theorem anyM_eq (tested : ∀ element, test element = disk.after (asked element) (accepts element))
    (elements : List α) :
    elements.anyM test = disk.after (askedUntil accepts asked elements) (elements.any accepts) := by
  induction elements with
  | nil => rfl
  | cons element elements ih =>
      rw [List.anyM, tested, askedUntil, List.any_cons]
      apply after_bind
      cases accepts element with
      | true => rfl
      | false => exact ih

theorem filterM_eq
    (tested : ∀ element, test element = disk.after (asked element) (accepts element))
    (elements : List α) :
    elements.filterM test = disk.after (elements.flatMap asked) (elements.filter accepts) := by
  have step (kept : List α) : List.filterAuxM test elements kept =
      disk.after (elements.flatMap asked) ((elements.filter accepts).reverse ++ kept) := by
    induction elements generalizing kept with
    | nil => rfl
    | cons element elements ih =>
        rw [List.filterAuxM, tested, List.flatMap_cons]
        apply after_bind
        rw [ih]
        cases accepted : accepts element with
        | true => simp [accepted]
        | false => simp [accepted]
  rw [List.filterM, step, List.append_nil]
  apply after_bind_ok
  rw [List.reverse_reverse]
  rfl

end Disk

namespace Solution

variable {disk : Disk}

/-! ## What a tree has for each function -/

/-- A marker file is in the directory. -/
def holdsMarker (tree : FileTree) (path : Path) : Bool :=
  projectMarkers.any (fun marker => tree.hasFile (path.child marker))

/-- The looks at the markers of a directory, up to the first that is there. -/
def markerLooks (tree : FileTree) (path : Path) : List (Request × Path) :=
  Disk.askedUntil (fun marker => tree.hasFile (path.child marker))
    (fun marker => [(.look, path.child marker)]) projectMarkers

theorem isProject_eq (path : Path) :
    isProject disk path =
      disk.after (markerLooks disk.files path) (holdsMarker disk.files path) := by
  apply Disk.anyM_eq
  intro marker
  exact Disk.hasFile_eq (path.child marker)

/-- A directory that is searched stands at the path. -/
def holdsSources (tree : FileTree) (path : Path) : Bool :=
  tree.hasDirectory path && !isExcluded path.name

/-- The requests by which a subdirectory is told to be a project or not. -/
def subprojectLooks (tree : FileTree) (path : Path) : List (Request × Path) :=
  (.look, path) :: if holdsSources tree path then markerLooks tree path else []

theorem isSubproject_eq (path : Path) :
    isSubproject disk path = disk.after (subprojectLooks disk.files path)
      (holdsSources disk.files path && holdsMarker disk.files path) := by
  rw [isSubproject, Disk.hasDirectory_eq, subprojectLooks, holdsSources]
  apply Disk.after_bind
  cases disk.files.hasDirectory path with
  | false => rfl
  | true =>
      cases isExcluded path.name with
      | true => rfl
      | false => exact isProject_eq path

/-- The subdirectories of a solution that are projects, by name. -/
def markedSubdirectories (tree : FileTree) (path : Path) (entries : List (String × FileTree)) :
    List Path :=
  (byName (entries.filter (fun entry =>
    holdsSources tree (path.child entry.1) && holdsMarker tree (path.child entry.1)))).map
    (fun entry => path.child entry.1)

theorem subprojects_eq (path : Path) (entries : List (String × FileTree)) :
    subprojects disk path entries =
      disk.after ((.list, path) ::
          entries.flatMap (fun entry => subprojectLooks disk.files (path.child entry.1)))
        (markedSubdirectories disk.files path entries) := by
  rw [subprojects, Disk.ask_eq]
  apply Disk.after_bind
  have told : ∀ entry : String × FileTree, isSubproject disk (path.child entry.1) =
      disk.after (subprojectLooks disk.files (path.child entry.1))
        (holdsSources disk.files (path.child entry.1) &&
          holdsMarker disk.files (path.child entry.1)) := by
    intro entry
    exact isSubproject_eq (path.child entry.1)
  rw [Disk.filterM_eq told]
  exact Disk.after_bind_ok rfl

/-- The roots of the projects of a solution directory. -/
def markedRoots (tree : FileTree) (path : Path) (entries : List (String × FileTree)) :
    List Path :=
  if holdsMarker tree path || (markedSubdirectories tree path entries).isEmpty then [path]
  else markedSubdirectories tree path entries

/-- The requests by which the roots are found. -/
def rootRequests (tree : FileTree) (path : Path) (entries : List (String × FileTree)) :
    List (Request × Path) :=
  markerLooks tree path ++
    if holdsMarker tree path then []
    else (.list, path) :: entries.flatMap (fun entry => subprojectLooks tree (path.child entry.1))

theorem projectRoots_eq (path : Path) (entries : List (String × FileTree)) :
    projectRoots disk path entries =
      disk.after (rootRequests disk.files path entries) (markedRoots disk.files path entries) := by
  rw [projectRoots, isProject_eq, rootRequests, markedRoots]
  apply Disk.after_bind
  cases holdsMarker disk.files path with
  | true => rfl
  | false =>
      refine (congrArg (· >>= _) (subprojects_eq path entries)).trans (Disk.after_bind_ok ?_)
      cases markedSubdirectories disk.files path entries with
      | nil => rfl
      | cons first others => rfl

/-- The source root of a project. -/
def sourceRootIn (tree : FileTree) (root : Path) : Path :=
  if tree.hasDirectory (root.child "src") then root.child "src" else root

theorem sourceRootOf_eq (root : Path) :
    sourceRootOf disk root =
      disk.after [(.look, root.child "src")] (sourceRootIn disk.files root) := by
  rw [sourceRootOf, Disk.hasDirectory_eq, sourceRootIn]
  apply Disk.after_bind_ok
  cases disk.files.hasDirectory (root.child "src") with
  | true => rfl
  | false => rfl

/-- The project at a root. -/
def projectAt (disk : Disk) (root : Path) : Project where
  name := root.name
  root := root
  sourceRoot := sourceRootIn disk.files root
  documents := (modules disk (sourceRootIn disk.files root)).map (fun file =>
    { path := file.path, moduleName := file.moduleName, isPackage := file.isPackage })

theorem loadProject_value (root : Path) :
    (loadProject disk root).value =
      disk.after [(.look, root.child "src")] (projectAt disk root) := by
  rw [loadProject, sourceRootOf_eq]
  unfold Disk.after
  cases disk.firstRefused? [(.look, root.child "src")] with
  | none => rfl
  | some error => rfl

theorem loadProjects_value (roots : List Path) :
    (loadProjects disk roots).value =
      disk.after (roots.map (fun root => (.look, root.child "src")))
        (roots.map (projectAt disk)) := by
  induction roots with
  | nil => rfl
  | cons root roots ih =>
      have onward : (loadProjects disk (root :: roots)).value =
          ((loadProject disk root).value >>= fun project =>
            (loadProjects disk roots).value.map (project :: ·)) := by
        rw [loadProjects, Logged.value_bind]
        cases (loadProject disk root).value with
        | error error => rfl
        | ok project => rfl
      rw [onward, loadProject_value]
      apply Disk.after_bind
      rw [ih]
      unfold Disk.after
      cases disk.firstRefused? (roots.map (fun root => (.look, root.child "src"))) with
      | none => rfl
      | some error => rfl

/-! ## Opening a solution -/

/-- The requests by which the projects of a solution directory are found. -/
def directoryRequests (tree : FileTree) (path : Path) (entries : List (String × FileTree)) :
    List (Request × Path) :=
  rootRequests tree path entries ++
    (markedRoots tree path entries).map (fun root => (.look, root.child "src"))

/-- The requests by which the projects of a solution are found, in the order of asking. -/
def requests (tree : FileTree) (path : Path) : List (Request × Path) :=
  (.look, path) ::
    match tree.locate? path with
    | some (.directory entries) => directoryRequests tree path entries
    | _ => []

/-- What is found in a solution directory. -/
def projectsIn (disk : Disk) (given : String) (entries : List (String × FileTree)) :
    Except LoadError (List Project) :=
  let projects := (markedRoots disk.files (Path.ofText given) entries).map (projectAt disk)
  if projects.all (fun project => project.documents.isEmpty) then .error (.noSources given)
  else .ok projects

/-- What is found at the path of a solution. -/
def projectsAt (disk : Disk) (given : String) : Except LoadError (List Project) :=
  let path := Path.ofText given
  match disk.files.locate? path with
  | none => .error (.missing given)
  | some (.file _) =>
    match pythonStem? path.name with
    | none => .error (.notPython given)
    | some stem =>
      .ok [{ name := stem, root := path.parent, sourceRoot := path.parent,
             documents := [{ path, moduleName := stem }] }]
  | some (.directory entries) => projectsIn disk given entries

/-- What is found after requests, as loading a solution gives it. -/
def foundAfter (disk : Disk) (requests : List (Request × Path))
    (found : Except LoadError (List Project)) : Except LoadFailure (List Project) :=
  match disk.firstRefused? requests with
  | some error => .error (.refused error)
  | none => found.mapError .reported

theorem openDirectory_value (given : String) (entries : List (String × FileTree)) :
    (openDirectory disk given entries).value =
      foundAfter disk (directoryRequests disk.files (Path.ofText given) entries)
        (projectsIn disk given entries) := by
  simp only [openDirectory, projectRoots_eq, projectsIn, foundAfter, directoryRequests,
    Disk.firstRefused?_append, Disk.after]
  cases disk.firstRefused? (rootRequests disk.files (Path.ofText given) entries) with
  | some error => rfl
  | none =>
      simp only [Logged.value_bind, loadProjects_value, Disk.after, Option.none_or]
      cases disk.firstRefused? ((markedRoots disk.files (Path.ofText given) entries).map
          (fun root => (.look, root.child "src"))) with
      | some error => rfl
      | none =>
          simp only
          split
          · rfl
          · rfl

/-- **A solution is opened after its requests.** -/
theorem openAt_value (given : String) :
    (openAt disk given).value =
      foundAfter disk (requests disk.files (Path.ofText given)) (projectsAt disk given) := by
  have order (later : List (Request × Path)) :
      disk.firstRefused? ((.look, Path.ofText given) :: later) =
        (disk.firstRefused? [(.look, Path.ofText given)]).or (disk.firstRefused? later) :=
    Disk.firstRefused?_append [(.look, Path.ofText given)] later
  rw [foundAfter, requests, order]
  simp only [openAt, Disk.look_eq, projectsAt, Disk.after]
  cases disk.firstRefused? [(.look, Path.ofText given)] with
  | some error => rfl
  | none =>
      cases disk.files.locate? (Path.ofText given) with
      | none => rfl
      | some found =>
          cases found with
          | directory entries => exact openDirectory_value given entries
          | file content =>
              simp only
              cases pythonStem? (Path.ofText given).name with
              | none => rfl
              | some stem => rfl

/-- What is reported is no error of the system. -/
theorem reported_ne_refused {α : Type} (found : Except LoadError α) (error : SystemError) :
    found.mapError LoadFailure.reported ≠ .error (.refused error) := by
  cases found with
  | error reason => simp [Except.mapError]
  | ok value => simp [Except.mapError]

/-- **Opening stops at the first request that is refused**, and only there an error of the system
comes up. -/
theorem openAt_refused_iff {given : String} {error : SystemError} :
    (openAt disk given).value = .error (.refused error) ↔
      disk.firstRefused? (requests disk.files (Path.ofText given)) = some error := by
  rw [openAt_value, foundAfter]
  cases disk.firstRefused? (requests disk.files (Path.ofText given)) with
  | some other => simp
  | none =>
      constructor
      · intro found
        exact absurd found (reported_ne_refused _ error)
      · intro refused
        cases refused

end Solution

end CyclicCalls
