/-! # The help of the command

What the command prints about its switches, and its version. -/

namespace Bulletin.Command

/-- Lines as a text, each with its line feed. -/
def unlines (lines : List String) : String := String.join (lines.map (· ++ "\n"))

/-- The name of the command. -/
def commandName : String := "md2nexus"

/-- The line that tells the version. -/
def versionLine : String := commandName ++ " 1.0.0"

/-- The short form of the help. -/
def usage : List String :=
  ["usage: md2nexus [-h] [--input PATH] [--output PATH]",
    "                [--input-format \x7bauto,markdown,mdast\x7d] [--heading-size N]",
    "                [--monospace-font NAME] [--frontmatter] [--config PATH]",
    "                [--no-config] [--parallel N] [--skip-errors] [--dump-ast]",
    "                [--verbose] [--log-level \x7bDEBUG,INFO,WARNING,ERROR\x7d]",
    "                [--log-file PATH] [--trace] [--version] [--about]"]

/-- The switches of a general kind. -/
def generalHelp : List String :=
  ["options:",
    "  -h, --help            show this help message and exit",
    "  --input PATH, -i PATH",
    "                        Markdown file, mdast JSON file, or directory of",
    "                        Markdown files to convert",
    "  --output PATH, -o PATH",
    "                        Output file (single input) or output directory",
    "                        (directory input). Defaults to stdout for a single",
    "                        input and '.' for a directory.",
    "  --input-format \x7bauto,markdown,mdast\x7d",
    "                        How to read the input (default: auto, which treats",
    "                        .json files as mdast JSON)",
    "  --config PATH         Path to configuration file (TOML, YAML, or JSON). If",
    "                        not specified, uses MD2NEXUS_CONFIG, then searches for",
    "                        .md2nexus.toml, .md2nexus.yaml, .md2nexus.json or",
    "                        pyproject.toml [tool.md2nexus] from the current",
    "                        directory upward, then in the home directory.",
    "  --no-config           Disable loading of configuration files, including",
    "                        MD2NEXUS_CONFIG and --config",
    "  --parallel N, -p N    Number of worker threads for directory input (default:",
    "                        1)",
    "  --skip-errors         Continue converting remaining files if one fails",
    "  --dump-ast            Print the parsed document as mdast JSON instead of",
    "                        converting it",
    "  --verbose, -v         Enable verbose output with detailed logging",
    "                        (equivalent to --log-level DEBUG)",
    "  --log-level \x7bDEBUG,INFO,WARNING,ERROR\x7d",
    "                        Set logging level (default: WARNING). Overrides",
    "                        --verbose if both are specified.",
    "  --log-file PATH       Write log messages to specified file in addition to",
    "                        console output",
    "  --trace               Enable trace mode with very verbose, timestamped",
    "                        logging",
    "  --version, -V         show program's version number and exit",
    "  --about, -A           Show information about md2nexus and exit"]

/-- The switches of rendering and of parsing. -/
def conversionHelp : List String :=
  ["BBCode rendering options:",
    "  --heading-size N      BBCode [size=N] used for every heading, 1-7 (default:",
    "                        5)",
    "  --monospace-font NAME",
    "                        Font used for inline code outside tables (default:",
    "                        Courier)",
    "",
    "Markdown parsing options:",
    "  --frontmatter         Read a leading --- or +++ block as YAML or TOML front",
    "                        matter"]

/-- The whole help. -/
def help : List String :=
  usage ++ ["", "Convert GitHub Flavored Markdown to NexusMods BBCode.", ""] ++ generalHelp ++
    [""] ++ conversionHelp ++ ["", "With no --input, Markdown is read from standard input."]

/-- What the command tells about itself. -/
def about : List String :=
  [versionLine, "", "Convert GitHub Flavored Markdown into the BBCode dialect used by",
    "NexusMods mod description pages.", "", "Features:",
    "  • Markdown and mdast JSON input",
    "  • Tables rendered as ASCII grids inside [code] blocks",
    "  • Footnotes and link definitions collected at the end of the document",
    "  • Single file, stdin, and whole-directory conversion"]

end Bulletin.Command
