/-!
# Fields

The fields that nodes of the various kinds have, and the names they go by. Two fields belong to every node and are not
given when it is built: what messages call the node, and what they call the things that it names.
-/

namespace SceneTree

/-- A field of a node. -/
inductive Field where
  | name | speed | interface | expansionBlocks | aiUtilizeBlocks | hardwareLiteBlocks | externalModules
  | externalModulesLite | id | objectType | lock | rotateMethod | x | y | regX | regY | scaleX | scaleY | rotation
  | direction | width | height | visible | selected | font | text | fontSize | colour | textAlign | lineBreak
  | bgColor | underLine | strike | fileurl | thumbUrl | imageType | duration | ext | value | isCloud | isRealTime
  | cloudDate | type | useLocalVariables | data | assemble | copyable | deletable | emphasized | movable | readOnly
  | extensions | kindName | targetName
  deriving DecidableEq, Repr

namespace Field

/-- All fields. -/
def all : List Field :=
  [.name, .speed, .interface, .expansionBlocks, .aiUtilizeBlocks, .hardwareLiteBlocks, .externalModules,
    .externalModulesLite, .id, .objectType, .lock, .rotateMethod, .x, .y, .regX, .regY, .scaleX, .scaleY, .rotation,
    .direction, .width, .height, .visible, .selected, .font, .text, .fontSize, .colour, .textAlign, .lineBreak,
    .bgColor, .underLine, .strike, .fileurl, .thumbUrl, .imageType, .duration, .ext, .value, .isCloud, .isRealTime,
    .cloudDate, .type, .useLocalVariables, .data, .assemble, .copyable, .deletable, .emphasized, .movable,
    .readOnly, .extensions, .kindName, .targetName]

/-- The label of a field: its words in small letters, with an underscore between them. -/
def label : Field → String
  | .name => "name"
  | .speed => "speed"
  | .interface => "interface"
  | .expansionBlocks => "expansion_blocks"
  | .aiUtilizeBlocks => "ai_utilize_blocks"
  | .hardwareLiteBlocks => "hardware_lite_blocks"
  | .externalModules => "external_modules"
  | .externalModulesLite => "external_modules_lite"
  | .id => "id"
  | .objectType => "object_type"
  | .lock => "lock"
  | .rotateMethod => "rotate_method"
  | .x => "x"
  | .y => "y"
  | .regX => "reg_x"
  | .regY => "reg_y"
  | .scaleX => "scale_x"
  | .scaleY => "scale_y"
  | .rotation => "rotation"
  | .direction => "direction"
  | .width => "width"
  | .height => "height"
  | .visible => "visible"
  | .selected => "selected"
  | .font => "font"
  | .text => "text"
  | .fontSize => "font_size"
  | .colour => "colour"
  | .textAlign => "text_align"
  | .lineBreak => "line_break"
  | .bgColor => "bg_color"
  | .underLine => "under_line"
  | .strike => "strike"
  | .fileurl => "fileurl"
  | .thumbUrl => "thumb_url"
  | .imageType => "image_type"
  | .duration => "duration"
  | .ext => "ext"
  | .value => "value"
  | .isCloud => "is_cloud"
  | .isRealTime => "is_real_time"
  | .cloudDate => "cloud_date"
  | .type => "type"
  | .useLocalVariables => "use_local_variables"
  | .data => "data"
  | .assemble => "assemble"
  | .copyable => "copyable"
  | .deletable => "deletable"
  | .emphasized => "emphasized"
  | .movable => "movable"
  | .readOnly => "read_only"
  | .extensions => "extensions"
  | .kindName => "kind"
  | .targetName => "target_kind"

/-- The field of a label. -/
def ofLabel? (label : String) : Option Field := all.find? fun field => field.label == label

/-- Every field is among all fields. -/
theorem mem_all (field : Field) : field ∈ all := by cases field <;> decide

end Field

end SceneTree
