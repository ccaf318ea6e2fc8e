import Sitewright.Template.Basic

/-!
# Scaffold

The files that a generated project needs besides its pages. All of them are fixed text but for the
layout, whose title is the name of the site.
-/

namespace Sitewright.Template.Scaffold

def compilerConfig : Template := .ofLines
  ["\x7b",
   "  \"compilerOptions\": \x7b",
   "    \"target\": \"ESNext\",",
   "    \"lib\": [\"DOM\", \"DOM.Iterable\", \"ESNext\"],",
   "    \"allowJs\": false,",
   "    \"skipLibCheck\": true,",
   "    \"strict\": true,",
   "    \"forceConsistentCasingInFileNames\": true,",
   "    \"noEmit\": true,",
   "    \"esModuleInterop\": true,",
   "    \"module\": \"ESNext\",",
   "    \"moduleResolution\": \"Bundler\",",
   "    \"resolveJsonModule\": true,",
   "    \"isolatedModules\": true,",
   "    \"jsx\": \"preserve\",",
   "    \"types\": [\"node\"]",
   "  \x7d,",
   "  \"include\": [\"next-env.d.ts\", \"**/*.ts\", \"**/*.tsx\"],",
   "  \"exclude\": [\"node_modules\"]",
   "\x7d"]

def environment : Template := .ofLines
  ["/// <reference types=\"next\" />",
   "/// <reference types=\"next/image-types/global\" />"]

def frameworkConfig : Template := .ofLines
  ["/** @type \x7bimport('next').NextConfig\x7d */",
   "const nextConfig = \x7b",
   "  reactStrictMode: true",
   "\x7d;",
   "",
   "export default nextConfig;"]

def stylesConfig : Template := .ofLines
  ["import type \x7b Config \x7d from \"tailwindcss\";",
   "",
   "const config: Config = \x7b",
   "  content: [",
   "    \"./app/**/*.\x7bjs,ts,jsx,tsx\x7d\",",
   "    \"./components/**/*.\x7bjs,ts,jsx,tsx\x7d\",",
   "    \"./lib/**/*.\x7bjs,ts\x7d\"",
   "  ],",
   "  theme: \x7b",
   "    extend: \x7b\x7d,",
   "  \x7d,",
   "  plugins: [],",
   "\x7d;",
   "",
   "export default config;"]

def postprocessorConfig : Template := .ofLines
  ["export default \x7b",
   "  plugins: \x7b",
   "    \"@tailwindcss/postcss\": \x7b\x7d,",
   "    autoprefixer: \x7b\x7d,",
   "  \x7d,",
   "\x7d;"]

def styles : Template := .ofLines
  ["@tailwind base;",
   "@tailwind components;",
   "@tailwind utilities;",
   "",
   "html, body \x7b",
   "  background-color: #020617;",
   "  color: #f8fafc;",
   "\x7d",
   "",
   "a \x7b",
   "  color: #60a5fa;",
   "\x7d",
   "a:hover \x7b",
   "  color: #93c5fd;",
   "\x7d"]

def layout : Template :=
  [.block
     ["\"use client\";",
      "",
      "import \"./globals.css\";",
      "import type \x7b ReactNode \x7d from \"react\";",
      "",
      "export default function RootLayout(\x7b children \x7d: \x7b children: ReactNode \x7d) " ++
        "\x7b",
      "  return (",
      "    <html lang=\"fr\">",
      "      <head>"],
   .text "        <title>\x7b ",
   .literal (.var "site_name"),
   .block
     [" \x7d</title>",
      "      </head>",
      "      <body className=\"min-h-screen antialiased\">",
      "        <main className=\"mx-auto max-w-5xl px-4 py-10\">\x7bchildren\x7d</main>",
      "      </body>",
      "    </html>",
      "  );",
      "\x7d"]]

end Sitewright.Template.Scaffold
