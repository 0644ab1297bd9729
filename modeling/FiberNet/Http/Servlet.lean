import FiberNet.Foundation.EditedTable
import FiberNet.Http.Message
import Mathlib.Data.List.AList
import Mathlib.Data.List.Induction

/-! # Servlet dispatch

The tables in which a server finds the servlet of a request, over any sequence of
changes. The changes hold a write lock, so they follow one another.
-/

namespace FiberNet

namespace Http

/-- A servlet: one of the classes below or a class of the user. -/
inductive Servlet (User : Type u) (CbType : Type v)
  | user (servlet : User)
  | functionServlet (cb : CbType)
  | notFoundServlet (name : List UInt8)
  deriving DecidableEq

/-- `m_dft` is the only pointer of a dispatch that its constructor can be given as null.
The entries are never null. -/
structure ServletDispatch (User : Type u) (CbType : Type v) where
  /-- An `unordered_map`. -/
  datas : AList fun _ : List UInt8 => Servlet User CbType
  /-- A `vector` of pairs. -/
  globs : List (Σ _ : List UInt8, Servlet User CbType)
  dft : Option (Servlet User CbType)

namespace ServletDispatch

variable {User : Type u} {CbType : Type v}

/-- The constructor. -/
def new (dft : Option (Servlet User CbType)) : ServletDispatch User CbType where
  datas := ∅
  globs := []
  dft :=
    match dft with
    | none => some (.notFoundServlet (text "httpServer/1.0.0"))
    | some servlet => some servlet

def addServlet (dispatch : ServletDispatch User CbType) (uri : List UInt8)
    (slt : Servlet User CbType) : ServletDispatch User CbType :=
  { dispatch with datas := dispatch.datas.insert uri slt }

/-- The overload of `addServlet` for a function. -/
def addServletCb (dispatch : ServletDispatch User CbType) (uri : List UInt8) (cb : CbType) :
    ServletDispatch User CbType :=
  { dispatch with datas := dispatch.datas.insert uri (.functionServlet cb) }

/-- The loop erases the first entry of the pattern. -/
def addGlobServlet (dispatch : ServletDispatch User CbType) (uri : List UInt8)
    (slt : Servlet User CbType) : ServletDispatch User CbType :=
  { dispatch with globs := dispatch.globs.kerase uri ++ [⟨uri, slt⟩] }

/-- The overload of `addGlobServlet` for a function. -/
def addGlobServletCb (dispatch : ServletDispatch User CbType) (uri : List UInt8)
    (cb : CbType) : ServletDispatch User CbType :=
  dispatch.addGlobServlet uri (.functionServlet cb)

def delServlet (dispatch : ServletDispatch User CbType) (uri : List UInt8) :
    ServletDispatch User CbType :=
  { dispatch with datas := dispatch.datas.erase uri }

def delGlobServlet (dispatch : ServletDispatch User CbType) (uri : List UInt8) :
    ServletDispatch User CbType :=
  { dispatch with globs := dispatch.globs.kerase uri }

def getServlet (dispatch : ServletDispatch User CbType) (uri : List UInt8) :
    Option (Servlet User CbType) :=
  dispatch.datas.lookup uri

/-- The first entry whose pattern is `uri`. -/
def getGlobServlet (dispatch : ServletDispatch User CbType) (uri : List UInt8) :
    Option (Servlet User CbType) :=
  dispatch.globs.dlookup uri

/-- `fnmatch pattern path` tells that the call of that name returns 0. -/
def getMatchServlet (fnmatch : List UInt8 → List UInt8 → Bool)
    (dispatch : ServletDispatch User CbType) (uri : List UInt8) :
    Option (Servlet User CbType) :=
  match dispatch.datas.lookup uri with
  | some servlet => some servlet
  | none =>
      match dispatch.globs.find? fun entry => fnmatch entry.1 uri with
      | some entry => some entry.2
      | none => dispatch.dft

/-! ## Runs -/

inductive Change (User : Type u) (CbType : Type v)
  | addServlet (uri : List UInt8) (slt : Servlet User CbType)
  | addServletCb (uri : List UInt8) (cb : CbType)
  | addGlobServlet (uri : List UInt8) (slt : Servlet User CbType)
  | addGlobServletCb (uri : List UInt8) (cb : CbType)
  | delServlet (uri : List UInt8)
  | delGlobServlet (uri : List UInt8)

def perform (dispatch : ServletDispatch User CbType) :
    Change User CbType → ServletDispatch User CbType
  | .addServlet uri slt => dispatch.addServlet uri slt
  | .addServletCb uri cb => dispatch.addServletCb uri cb
  | .addGlobServlet uri slt => dispatch.addGlobServlet uri slt
  | .addGlobServletCb uri cb => dispatch.addGlobServletCb uri cb
  | .delServlet uri => dispatch.delServlet uri
  | .delGlobServlet uri => dispatch.delGlobServlet uri

/-- A new dispatch behind a sequence of changes. -/
def run (dft : Option (Servlet User CbType)) (changes : List (Change User CbType)) :
    ServletDispatch User CbType :=
  changes.foldl perform (new dft)

namespace Change

/-- What a change says about the exact paths. -/
def exactEdit : Change User CbType → Option (TableEdit (List UInt8) (Servlet User CbType))
  | .addServlet uri slt => some (.add uri slt)
  | .addServletCb uri cb => some (.add uri (.functionServlet cb))
  | .delServlet uri => some (.remove uri)
  | _ => none

/-- What a change says about the patterns. -/
def globEdit : Change User CbType → Option (TableEdit (List UInt8) (Servlet User CbType))
  | .addGlobServlet uri slt => some (.add uri slt)
  | .addGlobServletCb uri cb => some (.add uri (.functionServlet cb))
  | .delGlobServlet uri => some (.remove uri)
  | _ => none

end Change

/-- The edits of the exact paths in a run. -/
def exactEdits (changes : List (Change User CbType)) :
    List (TableEdit (List UInt8) (Servlet User CbType)) :=
  changes.filterMap Change.exactEdit

/-- The edits of the patterns in a run. -/
def globEdits (changes : List (Change User CbType)) :
    List (TableEdit (List UInt8) (Servlet User CbType)) :=
  changes.filterMap Change.globEdit

variable (dispatch : ServletDispatch User CbType) (change : Change User CbType)

theorem dft_perform : (dispatch.perform change).dft = dispatch.dft := by
  cases change <;> rfl

theorem globs_perform :
    (dispatch.perform change).globs =
      match change.globEdit with
      | some edit => TableEdit.perform dispatch.globs edit
      | none => dispatch.globs := by
  cases change with
  | addServlet _ _ => rfl
  | addServletCb _ _ => rfl
  | addGlobServlet _ _ => rfl
  | addGlobServletCb _ _ => rfl
  | delServlet _ => rfl
  | delGlobServlet _ => exact (List.append_nil _).symm

theorem lookup_perform (uri : List UInt8) :
    (dispatch.perform change).datas.lookup uri =
      match change.exactEdit with
      | some edit => if edit.key = uri then edit.outcome else dispatch.datas.lookup uri
      | none => dispatch.datas.lookup uri := by
  have inserted : ∀ (key : List UInt8) (slt : Servlet User CbType),
      (dispatch.datas.insert key slt).lookup uri =
        if key = uri then some slt else dispatch.datas.lookup uri := by
    intro key slt
    split
    · rename_i same
      rw [← same, AList.lookup_insert]
    · rename_i other
      exact AList.lookup_insert_ne (Ne.symm other)
  cases change with
  | addServlet key slt => exact inserted key slt
  | addServletCb key cb => exact inserted key (.functionServlet cb)
  | delServlet key =>
      show (dispatch.datas.erase key).lookup uri =
        if key = uri then none else dispatch.datas.lookup uri
      split
      · rename_i same
        rw [← same, AList.lookup_erase]
      · rename_i other
        exact AList.lookup_erase_ne (Ne.symm other)
  | addGlobServlet _ _ => rfl
  | addGlobServletCb _ _ => rfl
  | delGlobServlet _ => rfl

variable (dft : Option (Servlet User CbType)) (changes : List (Change User CbType))

theorem run_append : run dft (changes ++ [change]) = (run dft changes).perform change :=
  List.foldl_concat perform _ change changes

/-- A default that is given is kept. -/
theorem dft_new : ∃ fallback, (new dft).dft = some fallback ∧
    ∀ servlet, dft = some servlet → fallback = servlet := by
  cases dft with
  | none => exact ⟨_, rfl, nofun⟩
  | some servlet => exact ⟨servlet, rfl, fun _ same => Option.some.inj same⟩

theorem dft_run : (run dft changes).dft = (new dft).dft := by
  induction changes using List.reverseRecOn with
  | nil => rfl
  | append_singleton changes change induction => rw [run_append, dft_perform, induction]

theorem exactEdits_append :
    exactEdits (changes ++ [change]) = exactEdits changes ++ change.exactEdit.toList := by
  rw [exactEdits, List.filterMap_append]
  cases edit : change.exactEdit <;> simp [edit, exactEdits]

theorem globEdits_append :
    globEdits (changes ++ [change]) = globEdits changes ++ change.globEdit.toList := by
  rw [globEdits, List.filterMap_append]
  cases edit : change.globEdit <;> simp [edit, globEdits]

/-- The vector holds the additions of patterns that stand, in their order. -/
theorem globs_run : (run dft changes).globs = TableEdit.standing (globEdits changes) := by
  induction changes using List.reverseRecOn with
  | nil => rfl
  | append_singleton changes change induction =>
      rw [run_append, globs_perform, induction, globEdits_append]
      cases change.globEdit with
      | none => exact congrArg TableEdit.standing (List.append_nil _).symm
      | some edit => exact (TableEdit.standing_append _ edit).symm

/-- The map holds the additions of exact paths that stand. -/
theorem lookup_run (uri : List UInt8) :
    (run dft changes).datas.lookup uri =
      (TableEdit.standing (exactEdits changes)).dlookup uri := by
  induction changes using List.reverseRecOn with
  | nil => rfl
  | append_singleton changes change induction =>
      rw [run_append, lookup_perform, induction, exactEdits_append]
      cases change.exactEdit with
      | none => rw [Option.toList_none, List.append_nil]
      | some edit =>
          rw [Option.toList_some, TableEdit.standing_append,
            TableEdit.dlookup_perform (TableEdit.nodupKeys_standing _)]

/-- Behind any changes the patterns are distinct, a lookup finds the servlet whose addition
stands, and a path gets the servlet of its exact entry, else of the first pattern in order
of last addition that matches it, else the default, which is not null. -/
theorem dispatches (fnmatch : List UInt8 → List UInt8 → Bool) :
    ((run dft changes).globs.map Sigma.fst).Nodup ∧
      (∀ uri servlet, (run dft changes).getServlet uri = some servlet ↔
        TableEdit.Stands (exactEdits changes) uri servlet) ∧
      (∀ uri servlet, (run dft changes).getGlobServlet uri = some servlet ↔
        TableEdit.Stands (globEdits changes) uri servlet) ∧
      (∃ fallback, (run dft changes).dft = some fallback ∧
        (∀ servlet, dft = some servlet → fallback = servlet) ∧
        ∀ path, getMatchServlet fnmatch (run dft changes) path =
          some (((run dft changes).getServlet path).getD
            (((TableEdit.standing (globEdits changes)).find? fun entry =>
              fnmatch entry.1 path).elim fallback Sigma.snd))) := by
  rcases dft_new dft with ⟨fallback, made, kept⟩
  refine ⟨?_, ?_, ?_, fallback, (dft_run dft changes).trans made, kept, ?_⟩
  · rw [globs_run]
    exact TableEdit.nodupKeys_standing _
  · intro uri servlet
    rw [getServlet, lookup_run, TableEdit.dlookup_standing_iff]
  · intro uri servlet
    rw [getGlobServlet, globs_run, TableEdit.dlookup_standing_iff]
  · intro path
    rw [getMatchServlet, getServlet, globs_run, dft_run, made]
    cases (run dft changes).datas.lookup path with
    | some servlet => rfl
    | none =>
        cases (TableEdit.standing (globEdits changes)).find? fun entry => fnmatch entry.1 path with
        | some entry => rfl
        | none => rfl

end ServletDispatch

end Http

end FiberNet
