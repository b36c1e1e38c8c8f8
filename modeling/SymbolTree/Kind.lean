/-!
# Kinds of syntax nodes

Every node of a tree has a `Kind`.  Kinds are numbered: a punctuation kind has the code of the
character it stands for, a keyword kind a number from 1001 on.  This file holds the two readings
of a kind (`Kind.name`, `Kind.value`), the inverse of the second (`Kind.ofValue?`), and the two
structural classes that the tree operations enforce.
-/

set_option autoImplicit false
namespace SymbolTree

/-- The kind of a syntax node.  A trailing underscore only keeps a name apart from a reserved
word. -/
inductive Kind where
  | eof | unknown | logicalNot | modulo | bitwiseAnd | openParenthesis | closeParenthesis
  | multiply | add | comma | subtract | member | divide | colon | semicolon | less | assignment
  | greater | conditional | openSquareBracket | closeSquareBracket | bitwiseXor
  | openCurvlyBracket | bitwiseOr | closeCurvlyBracket | bitwiseNot | abstract | array
  | arrayLiteral | as | assignmentAdd | assignmentBitwiseAnd | assignmentBitwiseOr
  | assignmentBitwiseXor | assignmentDivide | assignmentLogicalAnd | assignmentLogicalOr
  | assignmentLogicalXor | assignmentMaximum | assignmentMinimum | assignmentModulo
  | assignmentMultiply | assignmentPower | assignmentRotateLeft | assignmentRotateRight
  | assignmentShiftLeft | assignmentShiftRight | assignmentShiftRightUnsigned | assignmentSubtract
  | attributes | auto | boolean | break_ | byte | call | case | catch_ | char | class_ | compare
  | const | continue_ | debugger | decrement | default_ | delete | directiveList | do_ | double
  | else_ | empty | ensure | enum | equal | exclude | extends_ | export_ | false_ | final
  | finally_ | float | float64 | for_ | function | goto | greaterEqual | identifier | if_
  | implements | import_ | in_ | include_ | increment | inline | instanceof | int64 | interface
  | invariant | is | label | lessEqual | list | logicalAnd | logicalOr | logicalXor | long
  | match_ | maximum | minimum | name_ | namespace_ | native | new | notEqual | notMatch | null
  | objectLiteral | package | param | parameters | paramMatch | postDecrement | postIncrement
  | power | private_ | program | protected_ | public_ | range | regularExpression | require | rest
  | return_ | root | rotateLeft | rotateRight | scope | set | shiftLeft | shiftRight
  | shiftRightUnsigned | short | smartMatch | static | strictlyEqual | strictlyNotEqual | string
  | super | switch | synchronized | then_ | this_ | throw | throws | transient | true_ | try_
  | type | typeof | undefined | use | var | variable_ | varAttributes | videntifier | void
  | volatile | while | with_ | yield
  deriving DecidableEq, Repr, Inhabited

namespace Kind

/-- The upper-case name under which a kind is written in messages and listings. -/
def name : Kind → String
  | .eof => "EOF"
  | .unknown => "UNKNOWN"
  | .logicalNot => "LOGICAL_NOT"
  | .modulo => "MODULO"
  | .bitwiseAnd => "BITWISE_AND"
  | .openParenthesis => "OPEN_PARENTHESIS"
  | .closeParenthesis => "CLOSE_PARENTHESIS"
  | .multiply => "MULTIPLY"
  | .add => "ADD"
  | .comma => "COMMA"
  | .subtract => "SUBTRACT"
  | .member => "MEMBER"
  | .divide => "DIVIDE"
  | .colon => "COLON"
  | .semicolon => "SEMICOLON"
  | .less => "LESS"
  | .assignment => "ASSIGNMENT"
  | .greater => "GREATER"
  | .conditional => "CONDITIONAL"
  | .openSquareBracket => "OPEN_SQUARE_BRACKET"
  | .closeSquareBracket => "CLOSE_SQUARE_BRACKET"
  | .bitwiseXor => "BITWISE_XOR"
  | .openCurvlyBracket => "OPEN_CURVLY_BRACKET"
  | .bitwiseOr => "BITWISE_OR"
  | .closeCurvlyBracket => "CLOSE_CURVLY_BRACKET"
  | .bitwiseNot => "BITWISE_NOT"
  | .abstract => "ABSTRACT"
  | .array => "ARRAY"
  | .arrayLiteral => "ARRAY_LITERAL"
  | .as => "AS"
  | .assignmentAdd => "ASSIGNMENT_ADD"
  | .assignmentBitwiseAnd => "ASSIGNMENT_BITWISE_AND"
  | .assignmentBitwiseOr => "ASSIGNMENT_BITWISE_OR"
  | .assignmentBitwiseXor => "ASSIGNMENT_BITWISE_XOR"
  | .assignmentDivide => "ASSIGNMENT_DIVIDE"
  | .assignmentLogicalAnd => "ASSIGNMENT_LOGICAL_AND"
  | .assignmentLogicalOr => "ASSIGNMENT_LOGICAL_OR"
  | .assignmentLogicalXor => "ASSIGNMENT_LOGICAL_XOR"
  | .assignmentMaximum => "ASSIGNMENT_MAXIMUM"
  | .assignmentMinimum => "ASSIGNMENT_MINIMUM"
  | .assignmentModulo => "ASSIGNMENT_MODULO"
  | .assignmentMultiply => "ASSIGNMENT_MULTIPLY"
  | .assignmentPower => "ASSIGNMENT_POWER"
  | .assignmentRotateLeft => "ASSIGNMENT_ROTATE_LEFT"
  | .assignmentRotateRight => "ASSIGNMENT_ROTATE_RIGHT"
  | .assignmentShiftLeft => "ASSIGNMENT_SHIFT_LEFT"
  | .assignmentShiftRight => "ASSIGNMENT_SHIFT_RIGHT"
  | .assignmentShiftRightUnsigned => "ASSIGNMENT_SHIFT_RIGHT_UNSIGNED"
  | .assignmentSubtract => "ASSIGNMENT_SUBTRACT"
  | .attributes => "ATTRIBUTES"
  | .auto => "AUTO"
  | .boolean => "BOOLEAN"
  | .break_ => "BREAK"
  | .byte => "BYTE"
  | .call => "CALL"
  | .case => "CASE"
  | .catch_ => "CATCH"
  | .char => "CHAR"
  | .class_ => "CLASS"
  | .compare => "COMPARE"
  | .const => "CONST"
  | .continue_ => "CONTINUE"
  | .debugger => "DEBUGGER"
  | .decrement => "DECREMENT"
  | .default_ => "DEFAULT"
  | .delete => "DELETE"
  | .directiveList => "DIRECTIVE_LIST"
  | .do_ => "DO"
  | .double => "DOUBLE"
  | .else_ => "ELSE"
  | .empty => "EMPTY"
  | .ensure => "ENSURE"
  | .enum => "ENUM"
  | .equal => "EQUAL"
  | .exclude => "EXCLUDE"
  | .extends_ => "EXTENDS"
  | .export_ => "EXPORT"
  | .false_ => "FALSE"
  | .final => "FINAL"
  | .finally_ => "FINALLY"
  | .float => "FLOAT"
  | .float64 => "FLOAT64"
  | .for_ => "FOR"
  | .function => "FUNCTION"
  | .goto => "GOTO"
  | .greaterEqual => "GREATER_EQUAL"
  | .identifier => "IDENTIFIER"
  | .if_ => "IF"
  | .implements => "IMPLEMENTS"
  | .import_ => "IMPORT"
  | .in_ => "IN"
  | .include_ => "INCLUDE"
  | .increment => "INCREMENT"
  | .inline => "INLINE"
  | .instanceof => "INSTANCEOF"
  | .int64 => "INT64"
  | .interface => "INTERFACE"
  | .invariant => "INVARIANT"
  | .is => "IS"
  | .label => "LABEL"
  | .lessEqual => "LESS_EQUAL"
  | .list => "LIST"
  | .logicalAnd => "LOGICAL_AND"
  | .logicalOr => "LOGICAL_OR"
  | .logicalXor => "LOGICAL_XOR"
  | .long => "LONG"
  | .match_ => "MATCH"
  | .maximum => "MAXIMUM"
  | .minimum => "MINIMUM"
  | .name_ => "NAME"
  | .namespace_ => "NAMESPACE"
  | .native => "NATIVE"
  | .new => "NEW"
  | .notEqual => "NOT_EQUAL"
  | .notMatch => "NOT_MATCH"
  | .null => "NULL"
  | .objectLiteral => "OBJECT_LITERAL"
  | .package => "PACKAGE"
  | .param => "PARAM"
  | .parameters => "PARAMETERS"
  | .paramMatch => "PARAM_MATCH"
  | .postDecrement => "POST_DECREMENT"
  | .postIncrement => "POST_INCREMENT"
  | .power => "POWER"
  | .private_ => "PRIVATE"
  | .program => "PROGRAM"
  | .protected_ => "PROTECTED"
  | .public_ => "PUBLIC"
  | .range => "RANGE"
  | .regularExpression => "REGULAR_EXPRESSION"
  | .require => "REQUIRE"
  | .rest => "REST"
  | .return_ => "RETURN"
  | .root => "ROOT"
  | .rotateLeft => "ROTATE_LEFT"
  | .rotateRight => "ROTATE_RIGHT"
  | .scope => "SCOPE"
  | .set => "SET"
  | .shiftLeft => "SHIFT_LEFT"
  | .shiftRight => "SHIFT_RIGHT"
  | .shiftRightUnsigned => "SHIFT_RIGHT_UNSIGNED"
  | .short => "SHORT"
  | .smartMatch => "SMART_MATCH"
  | .static => "STATIC"
  | .strictlyEqual => "STRICTLY_EQUAL"
  | .strictlyNotEqual => "STRICTLY_NOT_EQUAL"
  | .string => "STRING"
  | .super => "SUPER"
  | .switch => "SWITCH"
  | .synchronized => "SYNCHRONIZED"
  | .then_ => "THEN"
  | .this_ => "THIS"
  | .throw => "THROW"
  | .throws => "THROWS"
  | .transient => "TRANSIENT"
  | .true_ => "TRUE"
  | .try_ => "TRY"
  | .type => "TYPE"
  | .typeof => "TYPEOF"
  | .undefined => "UNDEFINED"
  | .use => "USE"
  | .var => "VAR"
  | .variable_ => "VARIABLE"
  | .varAttributes => "VAR_ATTRIBUTES"
  | .videntifier => "VIDENTIFIER"
  | .void => "VOID"
  | .volatile => "VOLATILE"
  | .while => "WHILE"
  | .with_ => "WITH"
  | .yield => "YIELD"

/-- The number of a kind. -/
def value : Kind → Int
  | .eof => -1
  | .unknown => 0
  | .logicalNot => 33
  | .modulo => 37
  | .bitwiseAnd => 38
  | .openParenthesis => 40
  | .closeParenthesis => 41
  | .multiply => 42
  | .add => 43
  | .comma => 44
  | .subtract => 45
  | .member => 46
  | .divide => 47
  | .colon => 58
  | .semicolon => 59
  | .less => 60
  | .assignment => 61
  | .greater => 62
  | .conditional => 63
  | .openSquareBracket => 91
  | .closeSquareBracket => 93
  | .bitwiseXor => 94
  | .openCurvlyBracket => 123
  | .bitwiseOr => 124
  | .closeCurvlyBracket => 125
  | .bitwiseNot => 126
  | .abstract => 1001
  | .array => 1002
  | .arrayLiteral => 1003
  | .as => 1004
  | .assignmentAdd => 1005
  | .assignmentBitwiseAnd => 1006
  | .assignmentBitwiseOr => 1007
  | .assignmentBitwiseXor => 1008
  | .assignmentDivide => 1009
  | .assignmentLogicalAnd => 1010
  | .assignmentLogicalOr => 1011
  | .assignmentLogicalXor => 1012
  | .assignmentMaximum => 1013
  | .assignmentMinimum => 1014
  | .assignmentModulo => 1015
  | .assignmentMultiply => 1016
  | .assignmentPower => 1017
  | .assignmentRotateLeft => 1018
  | .assignmentRotateRight => 1019
  | .assignmentShiftLeft => 1020
  | .assignmentShiftRight => 1021
  | .assignmentShiftRightUnsigned => 1022
  | .assignmentSubtract => 1023
  | .attributes => 1024
  | .auto => 1025
  | .boolean => 1026
  | .break_ => 1027
  | .byte => 1028
  | .call => 1029
  | .case => 1030
  | .catch_ => 1031
  | .char => 1032
  | .class_ => 1033
  | .compare => 1034
  | .const => 1035
  | .continue_ => 1036
  | .debugger => 1037
  | .decrement => 1038
  | .default_ => 1039
  | .delete => 1040
  | .directiveList => 1041
  | .do_ => 1042
  | .double => 1043
  | .else_ => 1044
  | .empty => 1045
  | .ensure => 1046
  | .enum => 1047
  | .equal => 1048
  | .exclude => 1049
  | .extends_ => 1050
  | .export_ => 1051
  | .false_ => 1052
  | .final => 1053
  | .finally_ => 1054
  | .float => 1055
  | .float64 => 1056
  | .for_ => 1057
  | .function => 1058
  | .goto => 1059
  | .greaterEqual => 1060
  | .identifier => 1061
  | .if_ => 1062
  | .implements => 1063
  | .import_ => 1064
  | .in_ => 1065
  | .include_ => 1066
  | .increment => 1067
  | .inline => 1068
  | .instanceof => 1069
  | .int64 => 1070
  | .interface => 1071
  | .invariant => 1072
  | .is => 1073
  | .label => 1074
  | .lessEqual => 1075
  | .list => 1076
  | .logicalAnd => 1077
  | .logicalOr => 1078
  | .logicalXor => 1079
  | .long => 1080
  | .match_ => 1081
  | .maximum => 1082
  | .minimum => 1083
  | .name_ => 1084
  | .namespace_ => 1085
  | .native => 1086
  | .new => 1087
  | .notEqual => 1088
  | .notMatch => 1089
  | .null => 1090
  | .objectLiteral => 1091
  | .package => 1092
  | .param => 1093
  | .parameters => 1094
  | .paramMatch => 1095
  | .postDecrement => 1096
  | .postIncrement => 1097
  | .power => 1098
  | .private_ => 1099
  | .program => 1100
  | .protected_ => 1101
  | .public_ => 1102
  | .range => 1103
  | .regularExpression => 1104
  | .require => 1105
  | .rest => 1106
  | .return_ => 1107
  | .root => 1108
  | .rotateLeft => 1109
  | .rotateRight => 1110
  | .scope => 1111
  | .set => 1112
  | .shiftLeft => 1113
  | .shiftRight => 1114
  | .shiftRightUnsigned => 1115
  | .short => 1116
  | .smartMatch => 1117
  | .static => 1118
  | .strictlyEqual => 1119
  | .strictlyNotEqual => 1120
  | .string => 1121
  | .super => 1122
  | .switch => 1123
  | .synchronized => 1124
  | .then_ => 1125
  | .this_ => 1126
  | .throw => 1127
  | .throws => 1128
  | .transient => 1129
  | .true_ => 1130
  | .try_ => 1131
  | .type => 1132
  | .typeof => 1133
  | .undefined => 1134
  | .use => 1135
  | .var => 1136
  | .variable_ => 1137
  | .varAttributes => 1138
  | .videntifier => 1139
  | .void => 1140
  | .volatile => 1141
  | .while => 1142
  | .with_ => 1143
  | .yield => 1144

/-- Every kind, by increasing number. -/
def all : List Kind :=
  [.eof, .unknown, .logicalNot, .modulo, .bitwiseAnd, .openParenthesis, .closeParenthesis,
   .multiply, .add, .comma, .subtract, .member, .divide, .colon, .semicolon, .less, .assignment,
   .greater, .conditional, .openSquareBracket, .closeSquareBracket, .bitwiseXor,
   .openCurvlyBracket, .bitwiseOr, .closeCurvlyBracket, .bitwiseNot, .abstract, .array,
   .arrayLiteral, .as, .assignmentAdd, .assignmentBitwiseAnd, .assignmentBitwiseOr,
   .assignmentBitwiseXor, .assignmentDivide, .assignmentLogicalAnd, .assignmentLogicalOr,
   .assignmentLogicalXor, .assignmentMaximum, .assignmentMinimum, .assignmentModulo,
   .assignmentMultiply, .assignmentPower, .assignmentRotateLeft, .assignmentRotateRight,
   .assignmentShiftLeft, .assignmentShiftRight, .assignmentShiftRightUnsigned,
   .assignmentSubtract, .attributes, .auto, .boolean, .break_, .byte, .call, .case, .catch_,
   .char, .class_, .compare, .const, .continue_, .debugger, .decrement, .default_, .delete,
   .directiveList, .do_, .double, .else_, .empty, .ensure, .enum, .equal, .exclude, .extends_,
   .export_, .false_, .final, .finally_, .float, .float64, .for_, .function, .goto, .greaterEqual,
   .identifier, .if_, .implements, .import_, .in_, .include_, .increment, .inline, .instanceof,
   .int64, .interface, .invariant, .is, .label, .lessEqual, .list, .logicalAnd, .logicalOr,
   .logicalXor, .long, .match_, .maximum, .minimum, .name_, .namespace_, .native, .new, .notEqual,
   .notMatch, .null, .objectLiteral, .package, .param, .parameters, .paramMatch, .postDecrement,
   .postIncrement, .power, .private_, .program, .protected_, .public_, .range, .regularExpression,
   .require, .rest, .return_, .root, .rotateLeft, .rotateRight, .scope, .set, .shiftLeft,
   .shiftRight, .shiftRightUnsigned, .short, .smartMatch, .static, .strictlyEqual,
   .strictlyNotEqual, .string, .super, .switch, .synchronized, .then_, .this_, .throw, .throws,
   .transient, .true_, .try_, .type, .typeof, .undefined, .use, .var, .variable_, .varAttributes,
   .videntifier, .void, .volatile, .while, .with_, .yield]

/-- The kind with a given number, if there is one. -/
def ofValue? (v : Int) : Option Kind :=
  all.find? (fun k => k.value = v)

/-- The kind with a given name, if there is one. -/
def ofName? (s : String) : Option Kind :=
  all.find? (fun k => k.name = s)

/-- The character that a punctuation kind stands for: a number that is the code of a visible
ASCII character. -/
def punctuation (k : Kind) : Option Char :=
  if 33 ≤ k.value ∧ k.value ≤ 126 then some (Char.ofNat k.value.toNat) else none

/-- Kinds whose nodes never own children: keywords without operands, literals and tokens. -/
def leaves : List Kind :=
  [.abstract, .auto, .boolean, .break_, .byte, .char, .closeCurvlyBracket, .closeParenthesis,
   .closeSquareBracket, .colon, .comma, .const, .continue_, .default_, .double, .else_, .empty,
   .eof, .false_, .final, .float, .float64, .goto, .identifier, .inline, .int64, .long, .native,
   .null, .openCurvlyBracket, .openParenthesis, .openSquareBracket, .private_, .protected_,
   .public_, .regularExpression, .rest, .semicolon, .short, .static, .string, .then_, .this_,
   .transient, .true_, .undefined, .videntifier, .void, .volatile]

/-- Kinds whose nodes are never attached below another node: tokens and the root. -/
def unattached : List Kind :=
  [.closeCurvlyBracket, .closeParenthesis, .closeSquareBracket, .colon, .comma, .else_, .then_,
   .eof, .openCurvlyBracket, .openParenthesis, .openSquareBracket, .root, .semicolon]

/-- A node of this kind may own children. -/
def canBeParent (k : Kind) : Bool := !leaves.contains k

/-- A node of this kind may be attached below a parent. -/
def canBeChild (k : Kind) : Bool := !unattached.contains k

end Kind

end SymbolTree
