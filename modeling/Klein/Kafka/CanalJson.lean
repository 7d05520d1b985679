import Mathlib.Data.List.Forall2
import Klein.CheckpointMetadata
import Klein.DictBag
import Klein.Fallible
import Klein.Json
import Klein.Sql.Changelog

/-! The decoder of Canal FlatMessages (`formats/canal_json.py`) and the rows that the
Kafka source makes of them (`_decode_canal_json_rows`), from the JSON object of a message.
A row is compared as a mapping, whatever the order of its columns. -/
namespace Klein.Kafka
open Dict Fallible List Option Sql

inductive DdlHandling where
  | ignore
  | emit
  | fail
  deriving DecidableEq

structure CanalOptions where
  includeMetadata : Bool
  ddlHandling : DdlHandling

structure ChangelogRow where
  kind : RowKind
  cells : Dict String Json

structure KafkaPlace where
  topic : String
  partition : Int
  offset : Int

namespace CanalJson
variable (quote : String → String)

def dmlTypes : List String := ["INSERT","UPDATE","DELETE"]

def ddlTypes : List String := ["CREATE","ALTER","ERASE","TRUNCATE","RENAME","CINDEX","DINDEX"]

def metadataFields : List (String × String) :=
  [("id","id"),("database","database"),("table","table"),("type","event_type"),("es","execute_time"),("ts","build_time"),("gtid","gtid")]

/-- `_event_type` -/
def eventType (message : Dict String Json) : Except String String :=
  match message.get? "type" with
  | some (.text value) =>
    if CheckpointIO.blank value then .error "Canal message requires a non-empty string 'type'" else .ok value.toUpper
  | _ => .error "Canal message requires a non-empty string 'type'"

/-- `_is_ddl` -/
def isDdl (message : Dict String Json) (eventType : String) : Except String Bool :=
  match message.get? "isDdl" with
  | none => .ok (decide (eventType ∈ ddlTypes))
  | some (.bool value) => .ok (value || decide (eventType ∈ ddlTypes))
  | some _ => .error "Canal message 'isDdl' must be a boolean"

/-- `_rows` -/
def rows (value : Option Json) (name : String) (required : Bool) : Except String (List (Dict String Json)) :=
  let absent := if required then .error ("Canal DML message requires a '" ++ name ++ "' row list") else .ok []
  match value with
  | none => absent
  | some .null => absent
  | some (.list items) =>
    match items.mapM Json.mapping? with
    | some rows => .ok rows
    | none => .error ("Canal message '" ++ name ++ "' must be a list of JSON objects")
  | some _ => .error ("Canal message '" ++ name ++ "' must be a list of JSON objects")

/-- A field that is not `None`. -/
def present (value : Option Json) : Option Json :=
  match value with
  | some .null => none
  | _ => value

/-- `_metadata` -/
def metadata (message : Dict String Json) (eventType : String) : Except String (Dict String Json) :=
  let named := metadataFields.filterMap (fun field =>
    (present (if field.1 = "type" then some (.text eventType) else message.get? field.1)).map (fun value => ("__canal_" ++ field.2,value)))
  match present (message.get? "pkNames") with
  | none => .ok (Dict.ofList named)
  | some (.list names) =>
    if names.all Json.isText then .ok (Dict.ofList (named ++ [("__canal_pk_names",.list names)]))
    else .error "Canal message 'pkNames' must be a list of strings"
  | some _ => .error "Canal message 'pkNames' must be a list of strings"

/-- `_output_row` -/
def outputRow (data metadata : Dict String Json) : Dict String Json := data.update metadata.entries

/-- `_decode_updates` -/
def decodeUpdates (message : Dict String Json) (afterRows : List (Dict String Json)) (metadata : Dict String Json) :
    Except String (List ChangelogRow) := do
  let oldRows ← rows (message.get? "old") "old" true
  if oldRows.length ≠ afterRows.length then throw "Canal UPDATE 'old' and 'data' row counts must match"
  return (afterRows.zip oldRows).flatMap (fun (after,oldValues) =>
    [⟨.updateBefore,outputRow (after.update oldValues.entries) metadata⟩,⟨.updateAfter,outputRow after metadata⟩])

/-- `_decode_ddl` -/
def decodeDdl (options : CanalOptions) (message : Dict String Json) (eventType : String) : Except String (List ChangelogRow) :=
  match options.ddlHandling with
  | .ignore => .ok []
  | .fail => .error ("Canal DDL event " ++ quote eventType ++ " is not enabled")
  | .emit => do
    let row ← if options.includeMetadata then metadata message eventType else .ok (Dict.ofList [("__canal_event_type",.text eventType)])
    return [⟨.insert,row.update [("__canal_is_ddl",.bool true),("__canal_sql",(message.get? "sql").getD .null)]⟩]

def extraColumns (options : CanalOptions) (message : Dict String Json) (eventType : String) : Except String (Dict String Json) :=
  if options.includeMetadata then metadata message eventType else .ok ∅

/-- `decode_canal_json`, of the object that the payload is read into. -/
def decodeCanalJson (options : CanalOptions) (message : Dict String Json) : Except String (List ChangelogRow) := do
  let type ← eventType message
  if ← isDdl message type then decodeDdl quote options message type
  else
    let data ← rows (message.get? "data") "data" (decide (type ∈ dmlTypes))
    if type ∉ dmlTypes then
      if data ≠ [] then .error ("Unsupported Canal event type " ++ quote type ++ " with row data") else .ok []
    else
      let extra ← extraColumns options message type
      if type = "INSERT" then return data.map (fun row => ⟨.insert,outputRow row extra⟩)
      else if type = "DELETE" then return data.map (fun row => ⟨.delete,outputRow row extra⟩)
      else decodeUpdates message data extra

/-- `KafkaSource._decode_canal_json_rows` -/
def decodeCanalJsonRows (options : CanalOptions) (place : KafkaPlace) (message : Dict String Json) :
    Except String (List ChangelogRow) :=
  match decodeCanalJson quote options message with
  | .error error => .error ("Unable to decode canal-json at " ++ place.topic ++ "[" ++ toString place.partition ++ "] offset " ++
      toString place.offset ++ ": " ++ error)
  | .ok rows =>
    if options.includeMetadata then .ok (rows.map (fun row => ⟨row.kind,row.cells.update [("__canal_kafka_topic",.text place.topic),
      ("__canal_kafka_partition",.int place.partition),("__canal_kafka_offset",.int place.offset)]⟩))
    else .ok rows

def emittedRows (options : CanalOptions) (place : Option KafkaPlace) (message : Dict String Json) : Except String (List ChangelogRow) :=
  match place with
  | none => decodeCanalJson quote options message
  | some place => decodeCanalJsonRows quote options place message

def reservedColumns : List String :=
  metadataFields.map (fun field => "__canal_" ++ field.2) ++
    ["__canal_pk_names","__canal_kafka_topic","__canal_kafka_partition","__canal_kafka_offset"]

end CanalJson

abbrev Mapping := String → Option Json

inductive Statement where
  | insert (rows : List Mapping)
  | update (pairs : List (Mapping × Mapping))
  | delete (rows : List Mapping)

namespace CanalJson
variable (quote : String → String)

section histories
open scoped Classical

def Turns (statement : Statement) (before after : Multiset Mapping) : Prop :=
  match statement with
  | .insert rows => after = rows + before
  | .update pairs => ∃ rest, before = pairs.map Prod.fst + rest ∧ after = pairs.map Prod.snd + rest
  | .delete rows => before = rows + after

def Lists (message : Dict String Json) (name : String) (rows : List Mapping) : Prop :=
  ∃ objects : List (List (String × Json)), message.get? name = some (.list (objects.map Json.object)) ∧
    objects.map (fun entries => (Dict.ofList entries).get?) = rows

noncomputable def changed (pair : Mapping × Mapping) : Mapping := fun column => if pair.1 column = pair.2 column then none else pair.1 column

/-- The FlatMessage of a statement: full rows in `data`, changed columns in `old`. -/
def Describes (statement : Statement) (message : Dict String Json) : Prop :=
  (message.get? "isDdl" = none ∨ message.get? "isDdl" = some (.bool false)) ∧
  (present (message.get? "pkNames") = none ∨ ∃ names : List String, message.get? "pkNames" = some (.list (names.map Json.text))) ∧
  match statement with
  | .insert rows => message.get? "type" = some (.text "INSERT") ∧ Lists message "data" rows
  | .update pairs => message.get? "type" = some (.text "UPDATE") ∧ Lists message "data" (pairs.map Prod.snd) ∧
      Lists message "old" (pairs.map changed) ∧ ∀ pair ∈ pairs, ∀ column, (pair.1 column).isSome = (pair.2 column).isSome
  | .delete rows => message.get? "type" = some (.text "DELETE") ∧ Lists message "data" rows

inductive Leads : Multiset Mapping → List (Statement × Dict String Json × Option KafkaPlace) → Multiset Mapping → Prop
  | nil (table : Multiset Mapping) : Leads table [] table
  | cons (before middle after : Multiset Mapping) (statement : Statement) (message : Dict String Json) (place : Option KafkaPlace)
      (rest : List (Statement × Dict String Json × Option KafkaPlace)) (turns : Turns statement before middle)
      (describes : Describes statement message) (leads : Leads middle rest after) :
      Leads before ((statement,message,place)::rest) after

def withoutReserved (row : Mapping) : Mapping := fun column => if column ∈ reservedColumns then none else row column

def seen (options : CanalOptions) (row : Mapping) : Mapping := if options.includeMetadata then withoutReserved row else row

def rowChanges (options : CanalOptions) (rows : List ChangelogRow) : List (RowKind × Mapping) :=
  rows.map (fun row => (row.kind,seen options row.cells.get?))

def statementChanges (view : Mapping → Mapping) (statement : Statement) : List (RowKind × Mapping) :=
  match statement with
  | .insert rows => rows.map (fun row => (.insert,view row))
  | .update pairs => pairs.flatMap (fun pair => [(.updateBefore,view pair.1),(.updateAfter,view pair.2)])
  | .delete rows => rows.map (fun row => (.delete,view row))

end histories

section folding
open scoped Classical

theorem fold_updates (pairs : List (Mapping × Mapping)) (rest : Multiset Mapping) :
    Changelog.fold ((pairs.map Prod.fst : Multiset Mapping) + rest)
      (pairs.flatMap (fun pair => [(RowKind.updateBefore,pair.1),(RowKind.updateAfter,pair.2)])) =
      some ((pairs.map Prod.snd : Multiset Mapping) + rest) := by
  induction pairs generalizing rest with
  | nil => simp
  | cons pair others ih =>
    obtain ⟨before,after⟩ := pair
    have inside : before ∈ ((before::others.map Prod.fst : List Mapping) : Multiset Mapping) + rest := by simp
    rw [flatMap_cons,cons_append,Changelog.fold_cons,map_cons,Changelog.apply_retraction .updateBefore rfl _ _ inside,
      bind_some,singleton_append,Changelog.fold_cons,Changelog.apply_addition .updateAfter rfl,bind_some]
    have moved : after ::ₘ (((before::others.map Prod.fst : List Mapping) : Multiset Mapping) + rest).erase before =
        (others.map Prod.fst : Multiset Mapping) + (after ::ₘ rest) := by
      rw [← Multiset.cons_coe,Multiset.cons_add,Multiset.erase_cons_head,Multiset.add_cons]
    rw [moved,ih,map_cons,← Multiset.cons_coe,Multiset.cons_add,Multiset.add_cons]

theorem fold_statement (view : Mapping → Mapping) (statement : Statement) (before after : Multiset Mapping)
    (turns : Turns statement before after) :
    Changelog.fold (before.map view) (statementChanges view statement) = some (after.map view) := by
  cases statement with
  | insert rows =>
    have folded := Changelog.fold_additions .insert rfl (rows.map view) (before.map view)
    rw [List.map_map] at folded
    rw [show after = (rows : Multiset Mapping) + before from turns,Multiset.map_add,Multiset.map_coe]
    exact folded
  | update pairs =>
    obtain ⟨rest,held,left⟩ := turns
    have folded := fold_updates (pairs.map (fun pair => (view pair.1,view pair.2))) (rest.map view)
    rw [flatMap_map,List.map_map,List.map_map] at folded
    rw [held,left,Multiset.map_add,Multiset.map_add,Multiset.map_coe,Multiset.map_coe,List.map_map,List.map_map]
    exact folded
  | delete rows =>
    have folded := Changelog.fold_retractions .delete rfl (rows.map view) (before.map view) (after.map view) (by
      rw [show before = (rows : Multiset Mapping) + after from turns,Multiset.map_add,Multiset.map_coe])
    rw [List.map_map] at folded
    exact folded

end folding
section decoding
open scoped Classical
variable {quote}

theorem metadata_reserved (message extra : Dict String Json) (type : String) (done : metadata message type = .ok extra)
    (column : String) (value : Json) (found : extra.get? column = some value) : column ∈ reservedColumns := by
  have named : ∀ items : List (String × Json), (column,value) ∈ items →
      items = metadataFields.filterMap (fun field =>
        (present (if field.1 = "type" then some (.text type) else message.get? field.1)).map (fun value => ("__canal_" ++ field.2,value))) →
      column ∈ reservedColumns := by
    rintro items inside rfl
    obtain ⟨field,listed,drawn⟩ := mem_filterMap.mp inside
    obtain ⟨_,_,same⟩ := map_eq_some_iff.mp drawn
    cases same
    exact mem_append_left _ (List.mem_map.mpr ⟨field,listed,rfl⟩)
  unfold metadata at done
  dsimp only at done
  split at done
  · cases done
    exact named _ (get?_ofList _ column value found) rfl
  next names _ =>
    split at done
    · cases done
      rcases mem_append.mp (get?_ofList _ column value found) with field | keys
      · exact named _ field rfl
      · cases mem_singleton.mp keys
        exact mem_append_right _ (mem_cons_self ..)
    · cases done
  · cases done

theorem metadata_ok (message : Dict String Json) (type : String)
    (keys : present (message.get? "pkNames") = none ∨ ∃ names : List String, message.get? "pkNames" = some (.list (names.map Json.text))) :
    ∃ extra, metadata message type = .ok extra := by
  unfold metadata
  dsimp only
  rcases keys with absent | ⟨names,listed⟩
  · rw [absent]
    exact ⟨_,rfl⟩
  · have texts : (names.map Json.text).all Json.isText = true := by simp [Json.isText]
    rw [listed]
    dsimp only [present]
    rw [if_pos texts]
    exact ⟨_,rfl⟩

theorem seen_update (options : CanalOptions) (row : Dict String Json) (extra : List (String × Json))
    (reserved : ∀ item ∈ extra, item.1 ∈ reservedColumns) (none : options.includeMetadata = false → extra = []) :
    seen options (row.update extra).get? = seen options row.get? := by
  unfold seen
  split
  · ext1 column
    unfold withoutReserved
    split
    · rfl
    next plain =>
      apply get?_update_of_not_mem
      intro inside
      obtain ⟨item,listed,rfl⟩ := List.mem_map.mp inside
      exact plain (reserved item listed)
  next off =>
    rw [none (by simpa using off)]
    rfl

theorem extra_ok (options : CanalOptions) (message : Dict String Json) (type : String)
    (keys : present (message.get? "pkNames") = none ∨ ∃ names : List String, message.get? "pkNames" = some (.list (names.map Json.text))) :
    ∃ extra, extraColumns options message type = .ok extra ∧
      ∀ row : Dict String Json, seen options (outputRow row extra).get? = seen options row.get? := by
  by_cases included : options.includeMetadata = true
  · obtain ⟨extra,done⟩ := metadata_ok message type keys
    refine ⟨extra,(if_pos included).trans done,fun row => ?_⟩
    apply seen_update
    · intro item inside
      exact metadata_reserved message extra type done item.1 item.2 ((Dict.get?_eq_some extra item.1 item.2).mpr inside)
    · intro off
      rw [included] at off
      cases off
  · refine ⟨∅,if_neg included,fun row => seen_update options row _ (fun item inside => ?_) (fun _ => rfl)⟩
    cases inside

theorem rows_of_lists (message : Dict String Json) (name : String) (listed : List Mapping) (lists : Lists message name listed)
    (required : Bool) : ∃ data : List (Dict String Json), rows (message.get? name) name required = .ok data ∧ data.map Dict.get? = listed := by
  obtain ⟨objects,found,same⟩ := lists
  refine ⟨objects.map Dict.ofList,?_,?_⟩
  · have read : ∀ objects : List (List (String × Json)), (objects.map Json.object).mapM Json.mapping? = some (objects.map Dict.ofList) := by
      intro objects
      induction objects with
      | nil => rfl
      | cons entries rest ih => simp [mapM_cons,ih,Json.mapping?]
    rw [found]
    unfold rows
    dsimp only
    rw [read]
  · rw [List.map_map]
    exact same

theorem overlay (after old : Dict String Json) (pair : Mapping × Mapping) (current : after.get? = pair.2) (partly : old.get? = changed pair)
    (columns : ∀ column, (pair.1 column).isSome = (pair.2 column).isSome) : (after.update old.entries).get? = pair.1 := by
  ext1 column
  rw [get?_update,current,partly]
  unfold changed
  split
  next same => rw [none_or,same]
  next differs =>
    cases before : pair.1 column with
    | some value => rfl
    | none =>
      have missing := columns column
      rw [before,isSome_none] at missing
      rw [before] at differs
      exact absurd (isNone_iff_eq_none.mp (by simpa using missing.symm)).symm differs

theorem rowChanges_updates (options : CanalOptions) (extra : Dict String Json)
    (unseen : ∀ row : Dict String Json, seen options (outputRow row extra).get? = seen options row.get?)
    (pairs : List (Mapping × Mapping)) (data old : List (Dict String Json)) (current : data.map Dict.get? = pairs.map Prod.snd)
    (partly : old.map Dict.get? = pairs.map changed) (columns : ∀ pair ∈ pairs, ∀ column, (pair.1 column).isSome = (pair.2 column).isSome) :
    rowChanges options ((data.zip old).flatMap (fun (after,oldValues) =>
      [⟨.updateBefore,outputRow (after.update oldValues.entries) extra⟩,⟨.updateAfter,outputRow after extra⟩])) =
      pairs.flatMap (fun pair => [(.updateBefore,seen options pair.1),(.updateAfter,seen options pair.2)]) := by
  induction pairs generalizing data old with
  | nil =>
    rw [map_nil,map_eq_nil_iff] at current
    rw [current]
    rfl
  | cons pair rest ih =>
    obtain ⟨here,later⟩ := forall_mem_cons.mp columns
    obtain ⟨after,data,rfl,first,current⟩ := map_eq_cons_iff.mp current
    obtain ⟨oldValues,old,rfl,second,partly⟩ := map_eq_cons_iff.mp partly
    rw [zip_cons_cons,flatMap_cons,flatMap_cons]
    unfold rowChanges
    rw [map_append]
    apply congr
    · apply congrArg
      simp only [map_cons,map_nil]
      rw [unseen,unseen,overlay after oldValues pair first second here,first]
    · exact ih data old current partly later

theorem eventType_dml (message : Dict String Json) (type : String) (dml : type ∈ dmlTypes)
    (typed : message.get? "type" = some (.text type)) : eventType message = .ok type := by
  have plain : ∀ type ∈ dmlTypes, CheckpointIO.blank type = false ∧ type.toUpper = type := by decide +kernel
  obtain ⟨named,upper⟩ := plain type dml
  unfold eventType
  rw [typed]
  dsimp only
  rw [named,upper]
  rfl

theorem isDdl_dml (message : Dict String Json) (type : String) (dml : type ∈ dmlTypes)
    (ddl : message.get? "isDdl" = none ∨ message.get? "isDdl" = some (.bool false)) : isDdl message type = .ok false := by
  have other : ∀ type ∈ dmlTypes, decide (type ∈ ddlTypes) = false := by decide +kernel
  unfold isDdl
  rcases ddl with absent | off
  · rw [absent]
    dsimp only
    rw [other type dml]
  · rw [off]
    dsimp only
    rw [other type dml]
    rfl

section
variable (options : CanalOptions)
include options

theorem decode_dml (message : Dict String Json) (type : String) (dml : type ∈ dmlTypes)
    (typed : message.get? "type" = some (.text type))
    (ddl : message.get? "isDdl" = none ∨ message.get? "isDdl" = some (.bool false))
    (keys : present (message.get? "pkNames") = none ∨ ∃ names : List String, message.get? "pkNames" = some (.list (names.map Json.text)))
    (listed : List Mapping) (lists : Lists message "data" listed) :
    ∃ extra data, (∀ row : Dict String Json, seen options (outputRow row extra).get? = seen options row.get?) ∧
      data.map Dict.get? = listed ∧ decodeCanalJson quote options message =
        (if type = "INSERT" then .ok (data.map (fun row => ⟨.insert,outputRow row extra⟩))
        else if type = "DELETE" then .ok (data.map (fun row => ⟨.delete,outputRow row extra⟩))
        else decodeUpdates message data extra) := by
  obtain ⟨extra,made,unseen⟩ := extra_ok options message type keys
  obtain ⟨data,read,same⟩ := rows_of_lists message "data" listed lists (decide (type ∈ dmlTypes))
  refine ⟨extra,data,unseen,same,?_⟩
  unfold decodeCanalJson
  rw [ok_bind (eventType_dml message type dml typed),ok_bind (isDdl_dml message type dml ddl)]
  rw [if_neg Bool.false_ne_true,ok_bind read,if_neg (not_not.mpr dml),ok_bind made]
  rfl

theorem decode_statement (statement : Statement) (message : Dict String Json)
    (describes : Describes statement message) : ∃ rows, decodeCanalJson quote options message = .ok rows ∧
      rowChanges options rows = statementChanges (seen options) statement := by
  obtain ⟨ddl,keys,fields⟩ := describes
  cases statement with
  | insert listed =>
    obtain ⟨extra,data,unseen,same,decoded⟩ := @decode_dml quote options message "INSERT" (by decide) fields.1 ddl keys listed fields.2
    refine ⟨_,decoded.trans (if_pos rfl),?_⟩
    unfold rowChanges statementChanges
    dsimp only
    rw [List.map_map,← same,List.map_map]
    apply map_congr_left
    intro row _
    exact congrArg (Prod.mk RowKind.insert) (unseen row)
  | update pairs =>
    obtain ⟨typed,current,partly,columns⟩ := fields
    obtain ⟨extra,data,unseen,same,decoded⟩ := @decode_dml quote options message "UPDATE" (by decide) typed ddl keys _ current
    obtain ⟨old,read,changedSame⟩ := rows_of_lists message "old" _ partly true
    have length : old.length = data.length := by
      have left := congrArg List.length same
      have right := congrArg List.length changedSame
      simp only [length_map] at left right
      omega
    refine ⟨_,?_,rowChanges_updates options extra unseen pairs data old same changedSame columns⟩
    rw [decoded,if_neg (by decide),if_neg (by decide)]
    unfold decodeUpdates
    rw [ok_bind read,if_neg (not_not.mpr length)]
    rfl
  | delete listed =>
    obtain ⟨extra,data,unseen,same,decoded⟩ := @decode_dml quote options message "DELETE" (by decide) fields.1 ddl keys listed fields.2
    refine ⟨_,(decoded.trans (if_neg (by decide))).trans (if_pos rfl),?_⟩
    unfold rowChanges statementChanges
    dsimp only
    rw [List.map_map,← same,List.map_map]
    apply map_congr_left
    intro row _
    exact congrArg (Prod.mk RowKind.delete) (unseen row)

theorem emit_statement (statement : Statement) (message : Dict String Json) (place : Option KafkaPlace)
    (describes : Describes statement message) : ∃ rows, emittedRows quote options place message = .ok rows ∧
      rowChanges options rows = statementChanges (seen options) statement := by
  obtain ⟨rows,decoded,same⟩ := @decode_statement quote options statement message describes
  cases place with
  | none => exact ⟨rows,decoded,same⟩
  | some place =>
    unfold emittedRows decodeCanalJsonRows
    dsimp only
    rw [decoded]
    dsimp only
    by_cases included : options.includeMetadata = true
    · rw [if_pos included]
      refine ⟨_,rfl,?_⟩
      rw [← same]
      unfold rowChanges
      rw [List.map_map]
      apply map_congr_left
      intro row _
      apply congrArg (Prod.mk row.kind)
      apply seen_update
      · intro item inside
        apply mem_append_right
        simp only [mem_cons,not_mem_nil,or_false] at inside
        rcases inside with rfl | rfl | rfl
        all_goals simp
      · intro off
        rw [included] at off
        cases off
    · rw [if_neg included]
      exact ⟨rows,rfl,same⟩

theorem rowChanges_append (first second : List ChangelogRow) :
    rowChanges options (first ++ second) = rowChanges options first ++ rowChanges options second := map_append

end

end decoding

section folded
open scoped Classical

/-- Every retraction of a decoded history finds its row, and what is left is the table:
of whole rows without metadata, and of the rows but for reserved columns with it. -/
theorem history_folds (options : CanalOptions) (history : List (Statement × Dict String Json × Option KafkaPlace))
    (before after : Multiset Mapping) (leads : Leads before history after) :
    ∃ rows, history.mapM (fun entry => emittedRows quote options entry.2.2 entry.2.1) = .ok rows ∧
      Changelog.fold (before.map (seen options)) (rowChanges options rows.flatten) = some (after.map (seen options)) := by
  induction leads with
  | nil table => exact ⟨[],rfl,rfl⟩
  | cons before middle after statement message place rest turns describes leads ih =>
    obtain ⟨first,emitted,same⟩ := @emit_statement quote options statement message place describes
    obtain ⟨others,done,folded⟩ := ih
    refine ⟨first::others,?_,?_⟩
    · rw [mapM_cons,ok_bind emitted,ok_bind done]
      rfl
    · rw [flatten_cons,rowChanges_append,Changelog.fold_append,same,
        fold_statement (seen options) statement before middle turns,bind_some]
      exact folded

def orderMessage (type : String) : Dict String Json :=
  Dict.ofList [("type",.text type),("data",.list [.object [("id",.text "1")]])]

def orderRow (type : String) : Dict String Json :=
  outputRow (Dict.ofList [("id",.text "1")]) (Dict.ofList [("__canal_event_type",.text type)])

def insertedAndDeleted : List (Statement × Dict String Json × Option KafkaPlace) :=
  [(.insert [(Dict.ofList [("id",.text "1")]).get?],orderMessage "INSERT",none),
    (.delete [(Dict.ofList [("id",.text "1")]).get?],orderMessage "DELETE",none)]

theorem insertedAndDeleted_leads : Leads 0 insertedAndDeleted 0 := by
  have lists : ∀ type, Lists (orderMessage type) "data" [(Dict.ofList [("id",Json.text "1")]).get?] :=
    fun _ => ⟨[[("id",.text "1")]],rfl,rfl⟩
  refine .cons 0 _ 0 _ _ _ _ rfl ⟨.inl rfl,.inl rfl,rfl,lists _⟩ ?_
  refine .cons _ 0 0 _ _ _ _ rfl ⟨.inl rfl,.inl rfl,rfl,lists _⟩ ?_
  exact .nil 0

/-- The deleted row has the metadata of its own message, so it is no row that was inserted. -/
theorem deleted_row_is_new : Leads 0 insertedAndDeleted 0 ∧ ∃ rows,
    insertedAndDeleted.mapM (fun entry => emittedRows id ⟨true,.ignore⟩ entry.2.2 entry.2.1) = .ok rows ∧
      Changelog.fold 0 (rows.flatten.map (fun row => (row.kind,row.cells.get?))) = none := by
  have inserted : emittedRows id ⟨true,.ignore⟩ none (orderMessage "INSERT") =
      .ok [⟨.insert,orderRow "INSERT"⟩] := by
    change decodeCanalJson id ⟨true,.ignore⟩ (orderMessage "INSERT") = _
    unfold decodeCanalJson
    rw [ok_bind (eventType_dml _ "INSERT" (by decide) rfl),ok_bind (isDdl_dml _ "INSERT" (by decide) (.inl rfl))]
    rfl
  have deleted : emittedRows id ⟨true,.ignore⟩ none (orderMessage "DELETE") =
      .ok [⟨.delete,orderRow "DELETE"⟩] := by
    change decodeCanalJson id ⟨true,.ignore⟩ (orderMessage "DELETE") = _
    unfold decodeCanalJson
    rw [ok_bind (eventType_dml _ "DELETE" (by decide) rfl),ok_bind (isDdl_dml _ "DELETE" (by decide) (.inl rfl))]
    rfl
  refine ⟨insertedAndDeleted_leads,[[⟨.insert,orderRow "INSERT"⟩],[⟨.delete,orderRow "DELETE"⟩]],?_,?_⟩
  · unfold insertedAndDeleted
    rw [mapM_cons,ok_bind inserted,mapM_cons,ok_bind deleted]
    rfl
  · rw [flatten_cons,flatten_cons,flatten_nil,append_nil,singleton_append,map_cons,map_cons,
      map_nil,Changelog.fold_cons,Changelog.apply_addition .insert rfl,bind_some,Changelog.fold_cons]
    unfold Changelog.apply
    rw [if_neg (by decide),if_neg,bind_none]
    intro held
    have same := congrFun (Multiset.mem_singleton.mp held) "__canal_event_type"
    have texts : some (Json.text "DELETE") = some (Json.text "INSERT") := same
    exact absurd (Json.text.inj (some.inj texts)) (by decide)

/-- Without the reserved columns the row is inserted and retracted. -/
theorem inserted_row_is_retracted : ∃ rows,
    insertedAndDeleted.mapM (fun entry => emittedRows id ⟨true,.ignore⟩ entry.2.2 entry.2.1) = .ok rows ∧
      Changelog.fold ((0 : Multiset Mapping).map (seen ⟨true,.ignore⟩)) (rowChanges ⟨true,.ignore⟩ rows.flatten) =
        some ((0 : Multiset Mapping).map (seen ⟨true,.ignore⟩)) :=
  history_folds id ⟨true,.ignore⟩ insertedAndDeleted 0 0 insertedAndDeleted_leads

end folded
end CanalJson
end Klein.Kafka
