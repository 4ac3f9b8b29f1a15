import EngineHost.Guest.Memory
import EngineHost.Guest.System
import EngineHost.Wasm.Validation

/-!
# Linking

A module gets the functions that it imports from two modules of the host: one that takes log lines,
and one through which guests reach the system. Its segments are then copied into its memory.
-/

namespace EngineHost.Guest

/-- The functions of the system module with their parameters and results, `i` for 32 bits and `l`
for 64. -/
def systemFunctions : List (String × String × String) :=
  [("args_get", "ii", "i"), ("args_sizes_get", "ii", "i"), ("clock_res_get", "ii", "i"),
   ("clock_time_get", "ili", "i"), ("environ_get", "ii", "i"), ("environ_sizes_get", "ii", "i"),
   ("fd_advise", "illi", "i"), ("fd_allocate", "ill", "i"), ("fd_close", "i", "i"),
   ("fd_datasync", "i", "i"), ("fd_fdstat_get", "ii", "i"), ("fd_fdstat_set_flags", "ii", "i"),
   ("fd_fdstat_set_rights", "ill", "i"), ("fd_filestat_get", "ii", "i"),
   ("fd_filestat_set_size", "il", "i"), ("fd_filestat_set_times", "illi", "i"),
   ("fd_pread", "iiili", "i"), ("fd_prestat_get", "ii", "i"), ("fd_prestat_dir_name", "iii", "i"),
   ("fd_pwrite", "iiili", "i"), ("fd_read", "iiii", "i"), ("fd_readdir", "iiili", "i"),
   ("fd_renumber", "ii", "i"), ("fd_seek", "ilii", "i"), ("fd_sync", "i", "i"),
   ("fd_tell", "ii", "i"), ("fd_write", "iiii", "i"), ("path_create_directory", "iii", "i"),
   ("path_filestat_get", "iiiii", "i"), ("path_filestat_set_times", "iiiilli", "i"),
   ("path_link", "iiiiiii", "i"), ("path_open", "iiiiillii", "i"), ("path_readlink", "iiiiii", "i"),
   ("path_remove_directory", "iii", "i"), ("path_rename", "iiiiii", "i"),
   ("path_symlink", "iiiii", "i"), ("path_unlink_file", "iii", "i"), ("poll_oneoff", "iiii", "i"),
   ("proc_exit", "i", ""), ("proc_raise", "i", "i"), ("random_get", "ii", "i"),
   ("sched_yield", "", "i"), ("sock_accept", "iii", "i"), ("sock_recv", "iiiiii", "i"),
   ("sock_send", "iiiii", "i"), ("sock_shutdown", "ii", "i")]

def typesOf (letters : String) : List Wasm.ValueType :=
  letters.toList.map fun c => if c = 'l' then .i64 else .i32

/-- The functions of the host's modules by the names of the modules; log lines are taken by the one
with the given name. -/
def offered (logModule : Bytes) : List (Bytes × List (Bytes × Wasm.FunctionType)) :=
  [(systemName, systemFunctions.map fun (name, params, results) =>
      (Bytes.ofString name, ⟨typesOf params, typesOf results⟩)),
    (logModule, [(Bytes.ofString "log_message", ⟨[.i64], []⟩)])]

/-- Links an import to the function of its name among those that its source offers. -/
def linkImport (functions : List (Bytes × Wasm.FunctionType)) (types : List Wasm.FunctionType)
    (i : Wasm.Import) : Except Bytes Unit :=
  match functions.lookup i.name with
  | none => .error (Quoted.text i.name ++ " is not exported in module " ++ Quoted.text i.source)
  | some actual =>
    match i.item with
    | .function t =>
      let wanted := types.getD t {}
      if wanted = actual then .ok ()
      else .error ("import func[" ++ i.source ++ "." ++ i.name ++ "]: signature mismatch: " ++
        wanted.text ++ " != " ++ actual.text)
    | e => .error ("export " ++ Quoted.text i.name ++ " in module " ++ Quoted.text i.source ++
        " is a func, not a " ++ e.kind.name)

/-- Links all imports of a module, source by source. -/
def link (logModule : Bytes) (m : Wasm.Module) : Except Bytes Unit :=
  (m.imports.map (·.source)).eraseDups.forM fun source =>
    match (offered logModule).lookup source with
    | none => .error ("module[" ++ source ++ "] not instantiated")
    | some functions =>
      (m.imports.filter (·.source == source)).forM (linkImport functions m.types)

/-- The value of an offset. The host's modules offer no globals, so that no offset comes from one. -/
def offsetOf : Wasm.Constant → Nat
  | .i32 n => n
  | _ => 0

/-- The segments of a module that are copied into its memory, with their numbers and places. -/
def placedSegments (m : Wasm.Module) : List (Nat × Nat × Bytes) :=
  m.data.zipIdx.filterMap fun (s, number) =>
    s.offset.map fun c => (number, offsetOf c, s.data)

/-- Copies segments into a memory of the given size; the first that does not fit is reported by its
number. Places count as signed, so that those of the upper half never fit. -/
def placeSegments (size : Nat) (segments : List (Nat × Nat × Bytes)) : Except Bytes Unit :=
  segments.forM fun (number, place, data) =>
    if place < 2 ^ 31 && place + data.length ≤ size then .ok ()
    else .error ("data[" ++ Bytes.ofNat number ++ "]: out of bounds memory access")

end EngineHost.Guest
