import DropRoom.Room.Command

namespace DropRoom.Room

/-!
# Commands and inputs within documents

* `Command.ofJson?`, `CommandEffect.name`;
* `Feed.Taken.toJson`.
-/

/-- The command of a JSON value. -/
def Command.ofJson? (j : Json) : Option Command :=
  match (j.field "command").text? with
  | some "upload" => some (.upload ((j.field "files").elements.map File.Upload.ofJson))
  | some "download" => some (.download (((j.field "id").text?).getD ""))
  | some "delete_files" => some (.deleteFiles ((j.field "ids").elements.filterMap Json.text?))
  | some "leave_room" => some .leaveRoom
  | some "delete_room" => some .deleteRoom
  | _ => none

/-- The name of an effect. -/
def CommandEffect.name : CommandEffect → String
  | .stay => "stay"
  | .exitRoom => "exit_room"

/-- What came of the question for the next input as a JSON value. -/
def Feed.Taken.toJson : Feed.Taken → Json
  | .input i => i.toJson
  | .nothingYet => .string "end"
  | .ended => .string "end"

end DropRoom.Room
