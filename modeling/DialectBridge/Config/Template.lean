import DialectBridge.Config.Basic
/-!
# The template

A configuration file to start from: it ends the search for more files, and shows in comments
what can be set.
-/
namespace DialectBridge.Config

/-- The name of a configuration file in its directory. -/
def fileName : Text := ".ora2tsql.toml"

/-- If this environment variable is set to yes, the user's own configuration does not count. -/
def optOutVariable : Text := "ORA2TSQL_NO_USER_CONFIG"

def templateLines : List Text := [
  "# ora2tsql configuration",
  "#",
  "# Files named .ora2tsql.toml are read from the current directory upwards,",
  "# then from ~/.ora2tsql.toml. Set ORA2TSQL_NO_USER_CONFIG=1 to skip the",
  "# home directory file.",
  "",
  "# Stop looking in parent directories.",
  "root = true",
  "",
  "# Table name written into generated subquery skeletons, such as the",
  "# rewrite of LISTAGG(DISTINCT ...).",
  "# source-table-placeholder = \"<source_table>\"",
  "",
  "# Warning categories to drop from the output.",
  "# suppress-warnings = [\"CORRELATED_SUBQUERY\"]",
  "",
  "# Extra rules run after the built-in rules, in file order.",
  "# `direction` is \"oracle-to-tsql\" or \"tsql-to-oracle\"; omit it for both.",
  "",
  "# [[rules]]",
  "# name = \"schema-prefix\"",
  "# direction = \"oracle-to-tsql\"",
  "# substitution = 's/\\bHR\\./dbo./gi'",
  "",
  "# [[rules]]",
  "# name = \"audit-package\"",
  "# detect = '\\bPKG_AUDIT\\.'",
  "# warning = \"Calls to PKG_AUDIT have no counterpart on SQL Server. Remove or replace them.\""]

/-- The template for a configuration file. -/
def template : Text := Text.unlines templateLines

end DialectBridge.Config
